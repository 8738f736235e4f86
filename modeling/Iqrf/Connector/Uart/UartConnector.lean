import Iqrf.Connector.IConnector
import Iqrf.Connector.Uart.Grammar

/-!
# Receiving and sending on the UART

`receive` reads the port one byte at a time into a fresh `HdlcFrame` and returns at
the first read that times out. The port is the list of what its reads will report.
`receiveResults` are the results of `receive()` called again and again, computed in
one pass (`receiveResults_eq` says so), and `listeningLoop` is the listening loop
over them. `send` writes one encoded frame; what `sp_blocking_write` has done when it
returns is a `Write`.
-/

namespace Iqrf.Connector.Uart

open HdlcFrame

/-- What `sp_blocking_read` of one byte reports: `1`, `0` or a negative value. -/
inductive Read
  | byte (byte : UInt8)
  | timeout
  | error
  deriving DecidableEq, Repr

/-- What `receive` throws. -/
inductive ReceiveError
  | logicError (error : LogicError)
  | failedToRead
  deriving DecidableEq, Repr

/-- The text the exception carries. -/
def ReceiveError.what : ReceiveError → String
  | logicError error => error.what
  | failedToRead => "Failed to read from UART port"

namespace UartConnector

/-- The loop of `UartConnector::receive` with the frame so far: its result and the
reads left, or `none` while it waits for the next read. -/
def receiveLoop (frame : HdlcFrame) : List Read → Option (Except ReceiveError Bytes × List Read)
  | [] => none
  | .byte byte :: reads =>
    match frame.decodeByte byte with
    | (frame, .ok ()) => receiveLoop frame reads
    | (_, .error e) => some (.error (.logicError e), reads)
  | .timeout :: reads => some (frame.getData.mapError .logicError, reads)
  | .error :: reads => some (.error .failedToRead, reads)

/-- `UartConnector::receive`. -/
def receive (reads : List Read) : Option (Except ReceiveError Bytes × List Read) :=
  receiveLoop {} reads

/-- The results of calling `receive` again and again, where the first call has got as
far as `frame`. -/
def receiveResults (frame : HdlcFrame) : List Read → List (Except ReceiveError Bytes)
  | [] => []
  | .byte byte :: reads =>
    match frame.decodeByte byte with
    | (frame, .ok ()) => receiveResults frame reads
    | (_, .error e) => .error (.logicError e) :: receiveResults {} reads
  | .timeout :: reads => frame.getData.mapError .logicError :: receiveResults {} reads
  | .error :: reads => .error .failedToRead :: receiveResults {} reads

/-- The listening loop over the UART. -/
def listeningLoop {H : Type*} (returns : Delivery H → Bool) (c : IConnector H) (reads : List Read) :
    IConnector H × List (Delivery H) :=
  Connector.listeningLoop returns c ((receiveResults {} reads).map Except.toOption)

/-- What is left of one call, and then the calls on the reads it has left. -/
theorem receiveResults_eq_loop (frame : HdlcFrame) (reads : List Read) :
    receiveResults frame reads =
      match receiveLoop frame reads with
      | none => []
      | some (result, reads) => result :: receiveResults {} reads := by
  induction reads generalizing frame with
  | nil => rfl
  | cons read reads ih =>
    cases read with
    | byte byte =>
      rcases decoded : frame.decodeByte byte with ⟨frame', ⟨⟩ | ⟨⟩⟩
      · simp only [receiveResults, receiveLoop, decoded]
      · simp only [receiveResults, receiveLoop, decoded]
        exact ih frame'
    | timeout => rfl
    | error => rfl

/-- One call of `receive`, and then the calls on the reads it has left. -/
theorem receiveResults_eq (reads : List Read) :
    receiveResults {} reads =
      match receive reads with
      | none => []
      | some (result, reads) => result :: receiveResults {} reads :=
  receiveResults_eq_loop {} reads

/-! ## Bytes without a pause -/

variable {frame : HdlcFrame} {bytes : Bytes} {reads : List Read}

theorem receiveResults_byte_of_ok {byte : UInt8} {t : HdlcFrame}
    (decoded : frame.decodeByte byte = (t, .ok ())) :
    receiveResults frame (.byte byte :: reads) = receiveResults t reads := by
  simp only [receiveResults, decoded]

theorem receiveResults_byte_of_error {byte : UInt8} {t : HdlcFrame} {e : LogicError}
    (decoded : frame.decodeByte byte = (t, .error e)) :
    receiveResults frame (.byte byte :: reads) =
      .error (.logicError e) :: receiveResults {} reads := by
  simp only [receiveResults, decoded]

/-- Bytes the decoder takes are gathered within one call. -/
theorem receiveResults_bytes_of_ok {t : HdlcFrame}
    (h : Feed.strict decodeByte frame bytes = (t, .ok ())) (reads : List Read) :
    receiveResults frame (bytes.map .byte ++ reads) = receiveResults t reads := by
  induction bytes generalizing frame with
  | nil => cases h; rfl
  | cons byte bytes ih =>
    rcases decoded : frame.decodeByte byte with ⟨frame', ⟨⟩ | ⟨⟩⟩
    · rw [Feed.strict_cons_of_error decoded] at h
      cases h
    · rw [Feed.strict_cons_of_ok decoded] at h
      rw [List.map_cons, List.cons_append, receiveResults_byte_of_ok decoded]
      exact ih h

/-- Where the decoder throws, so does the call. -/
theorem receiveResults_bytes_of_error {t : HdlcFrame} {e : LogicError}
    (h : Feed.strict decodeByte frame bytes = (t, .error e)) (reads : List Read) :
    ∃ later, receiveResults frame (bytes.map .byte ++ reads) = .error (.logicError e) :: later := by
  induction bytes generalizing frame with
  | nil => cases h
  | cons byte bytes ih =>
    rw [List.map_cons, List.cons_append]
    rcases decoded : frame.decodeByte byte with ⟨frame', ⟨⟩ | ⟨⟩⟩
    · rw [Feed.strict_cons_of_error decoded] at h
      cases h
      exact ⟨_, receiveResults_byte_of_error decoded⟩
    · rw [Feed.strict_cons_of_ok decoded] at h
      rw [receiveResults_byte_of_ok decoded]
      exact ih h

/-- A timeout ends the call, and the next one starts afresh. -/
theorem receiveResults_timeout (closed : frame.decoding = false) (reads : List Read) :
    receiveResults frame (.timeout :: reads) = .ok frame.data :: receiveResults {} reads := by
  have data : frame.getData = .ok frame.data := getData_eq_ok_iff.mpr ⟨closed, rfl⟩
  simp only [receiveResults, data]
  rfl

/-! ## From one timeout to the next -/

/-- The bytes between two timeouts are one call of `receive`: `decode` and `getData`. -/
theorem receiveResults_segment_of_ok {d : Bytes} (decoded : decodeData bytes = .ok d)
    (reads : List Read) :
    receiveResults {} (bytes.map .byte ++ .timeout :: reads) =
      .ok d :: receiveResults {} reads := by
  obtain ⟨frame, run, closed, same⟩ := decodeData_eq_ok_iff.mp decoded
  subst same
  rw [receiveResults_bytes_of_ok run, receiveResults_timeout closed]

theorem receiveResults_segment_of_error {e : LogicError} (decoded : decodeData bytes = .error e)
    (reads : List Read) :
    ∃ later, receiveResults {} (bytes.map .byte ++ .timeout :: reads) =
      .error (.logicError e) :: later := by
  rcases run : Feed.strict decodeByte {} bytes with ⟨frame, e' | ⟨⟩⟩
  · have thrown : decodeData bytes = .error e' := by rw [decodeData, decode, run]
    cases thrown.symm.trans decoded
    exact receiveResults_bytes_of_error run _
  · have data : frame.getData = .error e := by
      rw [decodeData, decode_eq_ok_iff.mpr run] at decoded
      exact decoded
    rw [receiveResults_bytes_of_ok run]
    exact ⟨receiveResults {} reads, by simp only [receiveResults, data]; rfl⟩

/-- The calls on a port after a timeout have nothing to do with what was read before. -/
theorem receiveResults_append_timeout (frame : HdlcFrame) (before after : List Read) :
    receiveResults frame (before ++ .timeout :: after) =
      receiveResults frame (before ++ [.timeout]) ++ receiveResults {} after := by
  induction before generalizing frame with
  | nil => rfl
  | cons read before ih =>
    cases read with
    | byte byte =>
      rw [List.cons_append, List.cons_append]
      rcases decoded : frame.decodeByte byte with ⟨frame', e | ⟨⟩⟩
      · rw [receiveResults_byte_of_error decoded, receiveResults_byte_of_error decoded, ih,
          List.cons_append]
      · rw [receiveResults_byte_of_ok decoded, receiveResults_byte_of_ok decoded, ih]
    | timeout => exact congrArg (frame.getData.mapError .logicError :: ·) (ih {})
    | error => exact congrArg (.error .failedToRead :: ·) (ih {})

/-! ## The listening loop -/

variable {H : Type*} {returns : Delivery H → Bool} {c : IConnector H}

/-- Where no call throws, every buffer that is not empty is delivered. -/
theorem listeningLoop_of_buffers
    (present : c.hasExclusiveAccess = true ∨ c.normalResponseHandler.isSome = true)
    (listening : c.listening = true) (returned : ∀ call, returns call = true)
    {buffers : List Bytes} (results : receiveResults {} reads = buffers.map .ok) :
    listeningLoop returns c reads = (c, (buffers.filter (· ≠ [])).flatMap (entitled c)) := by
  have run := listeningLoop_append_buffers returned present listening buffers []
  have some_ : (buffers.map (Except.ok (ε := ReceiveError))).map Except.toOption =
      buffers.map some := by
    rw [List.map_map]
    rfl
  rw [List.append_nil] at run
  rw [listeningLoop, results, some_, run, Connector.listeningLoop, List.append_nil]

end UartConnector

/-! ## Sending -/

/-- The errors libserialport reports; a failure of the system comes with the text of
`sp_last_error_message`. -/
inductive SerialError
  | arg
  | fail (lastErrorMessage : String)
  | mem
  | supp
  deriving DecidableEq, Repr

/-- The values of `sp_return` below `SP_OK`. -/
def SerialError.code : SerialError → Int
  | arg => -1
  | fail _ => -2
  | mem => -3
  | supp => -4

/-- What `sp_blocking_write` has done when it returns: it reports how many bytes it has
written when it is done or its timeout runs out, or an error after some of them. -/
inductive Write
  | wrote (count : Nat)
  | failed (error : SerialError) (count : Nat)
  deriving DecidableEq, Repr

/-- The value it returns. -/
def Write.result : Write → Int
  | wrote count => count
  | failed error _ => error.code

/-- How many bytes have reached the port. -/
def Write.count : Write → Nat
  | wrote count => count
  | failed _ count => count

/-- The text of the last error, if there was one. -/
def Write.lastErrorMessage : Write → String
  | failed (.fail lastErrorMessage) _ => lastErrorMessage
  | _ => ""

/-- What `send` throws. -/
inductive SendError
  | noDataToSend
  | logicError (error : LogicError)
  | invalidArgument
  | failed (errorMessage : String)
  | memoryAllocationError
  | operationNotSupported
  deriving DecidableEq, Repr

/-- The text the exception carries. -/
def SendError.what : SendError → String
  | noDataToSend => "No data to send"
  | logicError error => error.what
  | invalidArgument => "Invalid argument"
  | failed errorMessage => "Failed: " ++ errorMessage
  | memoryAllocationError => "Memory allocation error"
  | operationNotSupported => "Operation not supported"

namespace UartConnector

/-- `UartConnector::checkSerialResult`, which looks for the four error codes only. -/
def checkSerialResult (lastErrorMessage : String) (result : Int) : Except SendError Int :=
  if result = -1 then .error .invalidArgument
  else if result = -2 then .error (.failed lastErrorMessage)
  else if result = -3 then .error .memoryAllocationError
  else if result = -4 then .error .operationNotSupported
  else .ok result

/-- `UartConnector::send`: the bytes that have reached the port, and how the call ended. -/
def send (data : Bytes) (write : Write) : Bytes × Except SendError Unit :=
  if data.isEmpty then ([], .error .noDataToSend)
  else
    match ofData data with
    | .error e => ([], .error (.logicError e))
    | .ok hdlcFrame =>
      match hdlcFrame.encode.2 with
      | .error e => ([], .error (.logicError e))
      | .ok frame =>
        match checkSerialResult write.lastErrorMessage write.result with
        | .error e => (frame.take write.count, .error e)
        | .ok _ => (frame.take write.count, .ok ())

theorem checkSerialResult_of_wrote (lastErrorMessage : String) (count : Nat) :
    checkSerialResult lastErrorMessage count = .ok count := by
  unfold checkSerialResult
  rw [if_neg (by omega), if_neg (by omega), if_neg (by omega), if_neg (by omega)]

/-- Every error that libserialport reports is thrown. -/
theorem checkSerialResult_of_failed (lastErrorMessage : String) (error : SerialError) :
    ∃ e, checkSerialResult lastErrorMessage error.code = .error e := by
  cases error <;> exact ⟨_, rfl⟩

end UartConnector

end Iqrf.Connector.Uart
