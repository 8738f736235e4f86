import Iqrf.Lib.Stuffing
import Iqrf.Lib.Feed
import Iqrf.Lib.Runs
import Iqrf.Lib.RecursiveLock
import Iqrf.Lib.SharedPtr
import Iqrf.Lib.ShiftRegister
import Iqrf.Lib.PolynomialRemainder
import Iqrf.Lib.Numbered
import Iqrf.Log.Logging
import Iqrf.Connector.IConnector
import Iqrf.Connector.Access
import Iqrf.Connector.Listening
import Iqrf.Connector.Lifecycle
import Iqrf.Connector.Destruction
import Iqrf.Connector.Sniffing
import Iqrf.Connector.Locking
import Iqrf.Connector.Uart.HdlcFrame
import Iqrf.Connector.Uart.Decoder
import Iqrf.Connector.Uart.Grammar
import Iqrf.Connector.Uart.RoundTrip
import Iqrf.Connector.Uart.Verified
import Iqrf.Connector.Uart.Reachable
import Iqrf.Connector.Uart.Transparency
import Iqrf.Connector.Uart.Resync
import Iqrf.Connector.Uart.Crc
import Iqrf.Connector.Uart.CrcPolynomial
import Iqrf.Connector.Uart.UartConnector
import Iqrf.Connector.Uart.CleanLine
import Iqrf.Connector.Uart.Noise
import Iqrf.Connector.Tcp.TcpConnector
import Iqrf.Connector.Tcp.Receiving
import Iqrf.Connector.Tcp.Connecting
import Iqrf.Connector.Tcp.Serving
import Iqrf.Connector.Sending
import Iqrf.Connector.Uart.Link
import Iqrf.Connector.Uart.EndToEnd
import Iqrf.Gpio.Base
import Iqrf.Gpio.GpiodV1
import Iqrf.Gpio.GpiodV2
import Iqrf.Gpio.Gpiod
import Iqrf.Gpio.GpioMap
import Iqrf.Gpio.GpioResolver
import Iqrf.Gpio.Config
import Iqrf.Gpio.GpioFreeBsd
import Iqrf.Gpio.Opening
import Iqrf.Gpio.GpioMock
import Iqrf.Gpio.Platform
import Iqrf.Gpio.Handle
import Iqrf.Gpio.Assignment
import Iqrf.Connector.Driving
import Iqrf.Connector.BusSwitcher
import Iqrf.Connector.Uart.Construction
import Iqrf.Connector.Teardown
import Iqrf.Connector.Drivers
import Iqrf.Connector.Uart.Lifetime
