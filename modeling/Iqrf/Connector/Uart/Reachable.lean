import Iqrf.Connector.Uart.Verified

/-!
# Objects in use, and what an opening flag erases

`Reachable` are the objects that a constructor and any calls of `decodeByte` and
`encode` leave behind, whatever was thrown on the way. None of them has an escape
open outside a frame (`escapeInFrame_of_reachable`), so the opening flag, which
resets everything but the escape flag, leaves one and the same object whatever
came before.
-/

namespace Iqrf.Connector.Uart

namespace HdlcFrame

/-- The objects left behind by a constructor and any calls of `decodeByte` and
`encode`, exceptions caught. -/
inductive Reachable : HdlcFrame → Prop
  | default : Reachable {}
  | ofData {data : Bytes} {frame : HdlcFrame} (constructed : ofData data = .ok frame) :
    Reachable frame
  | decodeByte {frame : HdlcFrame} (byte : UInt8) (before : Reachable frame) :
    Reachable (frame.decodeByte byte).1
  | encode {frame : HdlcFrame} (before : Reachable frame) : Reachable frame.encode.1

/-- `encode` touches nothing but the CRC. -/
theorem encode_mode (frame : HdlcFrame) :
    frame.encode.1.data = frame.data ∧ frame.encode.1.decoding = frame.decoding ∧
      frame.encode.1.escape = frame.escape := by
  unfold encode
  split
  · exact ⟨rfl, rfl, rfl⟩
  · split
    · exact ⟨rfl, rfl, rfl⟩
    · dsimp only
      split <;> exact ⟨rfl, rfl, rfl⟩

theorem idle_of_ofData {data : Bytes} {frame : HdlcFrame}
    (constructed : ofData data = .ok frame) : frame.Idle := by
  unfold ofData at constructed
  split at constructed
  · cases constructed
  · cases constructed
    exact ⟨rfl, rfl⟩

/-- Every branch of every call keeps the escape flag down outside a frame. -/
theorem escapeInFrame_of_reachable {frame : HdlcFrame} (reachable : frame.Reachable) :
    frame.EscapeInFrame := by
  induction reachable with
  | default => exact fun _ => rfl
  | ofData constructed => exact fun _ => (idle_of_ofData constructed).2
  | decodeByte byte _ ih => exact (decodeByte_mode ih byte).2
  | @encode frame _ ih =>
    obtain ⟨-, decoding, escape⟩ := frame.encode_mode
    intro closed
    rw [escape]
    exact ih (decoding.symm.trans closed)

/-- Not decoding, an object in use is idle. -/
theorem Reachable.idle {frame : HdlcFrame} (reachable : frame.Reachable)
    (closed : frame.decoding = false) : frame.Idle :=
  ⟨closed, escapeInFrame_of_reachable reachable closed⟩

theorem reachable_caught {frame : HdlcFrame} (reachable : frame.Reachable) (s : Bytes) :
    (Feed.caught HdlcFrame.decodeByte frame s).Reachable :=
  Feed.caught_invariant (P := Reachable) (fun _ byte before => before.decodeByte byte) reachable s

/-- The objects that `decode` returns are in use too. -/
theorem reachable_of_decode {s : Bytes} {frame : HdlcFrame} (decoded : decode s = .ok frame) :
    frame.Reachable := by
  have same := Feed.caught_of_strict (decode_eq_ok_iff.mp decoded)
  rw [← same]
  exact reachable_caught .default s

end HdlcFrame

open HdlcFrame

/-! ## The opening flag -/

/-- What a caller sees of an object that is fed `s`, exceptions caught: how each call
ended, and what `getData` and `encode` give afterwards. -/
def seen (frame : HdlcFrame) (s : Bytes) :
    List (Except LogicError Unit) × Except LogicError Bytes × Except LogicError Bytes :=
  let left := Feed.caught decodeByte frame s
  (Feed.outcomes decodeByte frame s, left.getData, left.encode.2)

/-- After the opening flag the object is the one a fresh decoder would be. -/
theorem seen_open {frame : HdlcFrame} (idle : frame.Idle) (t : Bytes) :
    seen frame (hdlcFlag :: t) =
      (.ok () :: (seen ⟨[], true, false, -1⟩ t).1, (seen ⟨[], true, false, -1⟩ t).2) := by
  have opened := decodeByte_open_of_idle idle
  simp only [seen, Feed.outcomes_cons_of_ok opened, Feed.caught_cons, opened]

/-- **An opening flag erases the decoder's history.** Two objects in use that are not
decoding cannot be told apart by any bytes that begin with a flag. -/
theorem seen_flag_eq {f g : HdlcFrame} (hf : f.Reachable) (hg : g.Reachable)
    (closedF : f.decoding = false) (closedG : g.decoding = false) (t : Bytes) :
    seen f (hdlcFlag :: t) = seen g (hdlcFlag :: t) := by
  rw [seen_open (hf.idle closedF), seen_open (hg.idle closedG)]

/-- A fresh object, and the object of payload `01` after a rejected frame. -/
theorem seen_flag_eq_rejected :
    seen {} (hdlcFlag :: [0x01, 0x6B, 0x7E]) =
      seen (Feed.caught decodeByte (holding [0x01]) [0x7E, 0x02, 0x00, 0x7E])
        (hdlcFlag :: [0x01, 0x6B, 0x7E]) :=
  seen_flag_eq .default
    (reachable_caught (.ofData (ofData_of_ne_nil (List.cons_ne_nil _ _))) _) rfl rfl _

end Iqrf.Connector.Uart
