import Mathlib.Data.List.Nodup
import SuperShare.Input.WarpCapture
import SuperShare.Lib.Binary32

/-!
# From the captured event to the injected one

A button, wheel or key event that the server captures in remote mode becomes a message, is
encoded and decoded, and becomes an event again that the client injects. The way there and the
way back are separate tables. The protocol has three buttons and single-precision wheel deltas,
and a key is found again by comparing its hash with the hashes of a list of common keys.
-/

namespace SuperShare

/-- The keys of rdev: those that the injector looks up, other named ones, and unknown codes. -/
inductive Key (τ : Type) where
  | alt | altGr | backspace | capsLock | controlLeft | controlRight | delete | downArrow
  | endKey | escape | f1 | f2 | f3 | f4 | f5 | f6 | f7 | f8 | f9 | f10 | f11 | f12 | home
  | leftArrow | metaLeft | metaRight | pageDown | pageUp | returnKey | rightArrow
  | shiftLeft | shiftRight | space | tab | upArrow
  | other (key : τ)
  | unknown (code : UInt32)
  deriving DecidableEq

variable {τ : Type}

/-- The debug format of a key, with the names of the others. -/
def Key.debug (name : τ → String) : Key τ → String
  | alt => "Alt"
  | altGr => "AltGr"
  | backspace => "Backspace"
  | capsLock => "CapsLock"
  | controlLeft => "ControlLeft"
  | controlRight => "ControlRight"
  | delete => "Delete"
  | downArrow => "DownArrow"
  | endKey => "End"
  | escape => "Escape"
  | f1 => "F1"
  | f2 => "F2"
  | f3 => "F3"
  | f4 => "F4"
  | f5 => "F5"
  | f6 => "F6"
  | f7 => "F7"
  | f8 => "F8"
  | f9 => "F9"
  | f10 => "F10"
  | f11 => "F11"
  | f12 => "F12"
  | home => "Home"
  | leftArrow => "LeftArrow"
  | metaLeft => "MetaLeft"
  | metaRight => "MetaRight"
  | pageDown => "PageDown"
  | pageUp => "PageUp"
  | returnKey => "Return"
  | rightArrow => "RightArrow"
  | shiftLeft => "ShiftLeft"
  | shiftRight => "ShiftRight"
  | space => "Space"
  | tab => "Tab"
  | upArrow => "UpArrow"
  | other key => name key
  | unknown code => "Unknown(" ++ toString code.toNat ++ ")"

/-- The keycodes of the keys of rdev. -/
def keyLib (name : τ → String) (blake3 : List UInt8 → Vector UInt8 32) : KeyLib (Key τ) where
  debugName := Key.debug name
  blake3 := blake3

/-- The keys that the injector looks up. -/
def commonKeys : List (Key τ) :=
  [.alt, .altGr, .backspace, .capsLock, .controlLeft, .controlRight, .delete, .downArrow,
    .endKey, .escape, .f1, .f2, .f3, .f4, .f5, .f6, .f7, .f8, .f9, .f10, .f11, .f12, .home,
    .leftArrow, .metaLeft, .metaRight, .pageDown, .pageUp, .returnKey, .rightArrow,
    .shiftLeft, .shiftRight, .space, .tab, .upArrow]

/-- Convert a keycode back to a key: the first of the common keys that has it. -/
def KeyLib.u32ToKey (lib : KeyLib (Key τ)) (keycode : UInt32) : Option (Key τ) :=
  commonKeys.find? fun key => lib.keyToU32 key == keycode

/-- `map_button` of the injector. -/
def Button.mapButton : Button → RdevButton
  | left => .left
  | right => .right
  | middle => .middle

/-- The event that `inject_event` simulates, if there is one. -/
def injectEvent (lib : KeyLib (Key τ)) : Message → Option (EventType Float (Key τ))
  | .mouseMove x y =>
      some (.mouseMove (Float32.ofBits x).toFloat (Float32.ofBits y).toFloat)
  | .mouseButton button pressed =>
      some (if pressed then .buttonPress button.mapButton else .buttonRelease button.mapButton)
  | .mouseScroll dx dy => some (.wheel (Binary32.toInt64 dx) (Binary32.toInt64 dy))
  | .keyPress keycode pressed =>
      (lib.u32ToKey keycode).map fun key => if pressed then .keyPress key else .keyRelease key
  | _ => none

/-- The message for a captured event. -/
def WarpInputEvent.toMessage : WarpInputEvent F32 → Message
  | mouseDelta dx dy => .mouseDelta dx dy
  | mouseButton button pressed => .mouseButton button pressed
  | keyPress keycode pressed => .keyPress keycode pressed
  | scroll dx dy => .mouseScroll dx dy
  | boundaryEnter enterX enterY => .boundaryEnter 1 enterX enterY

/-- The operations of the machine. -/
instance : CursorNumber Float F32 where
  ofNat n := Float.ofNat n
  add x y := x + y
  sub x y := x - y
  clamp x lo hi := if x < lo then lo else if hi < x then hi else x
  ge x y := x ≥ y
  ne x y := x != y
  toF32 x := x.toFloat32.toBits
  ofWheel := Binary32.ofInt

/-- What the client injects for a captured event, once its message was encoded and decoded. -/
def WarpInputEvent.deliver (lib : KeyLib (Key τ)) (event : WarpInputEvent F32) :
    Option (EventType Float (Key τ)) :=
  match Message.decode event.toMessage.msgType event.toMessage.encode with
  | .ok message => injectEvent lib message
  | .error _ => none

/-- What the client injects for the outcomes of the callback. -/
def injected (lib : KeyLib (Key τ)) (outcomes : List (CaptureOutcome Float (Key τ) F32)) :
    List (EventType Float (Key τ)) :=
  outcomes.filterMap fun o => o.emitted.bind (WarpInputEvent.deliver lib)

variable {α κ : Type}

/-- The key is one that the injector looks up. -/
def Key.isCommon : Key τ → Bool
  | other _ | unknown _ => false
  | _ => true

/-- A button, wheel or key event whose key, if it has one, is a common key. -/
def EventType.common : EventType α (Key τ) → Bool
  | mouseMove .. => false
  | keyPress key | keyRelease key => key.isCommon
  | _ => true

/-- What the protocol carries of an event: one of three buttons, and wheel deltas as floats. -/
def EventType.carried : EventType α κ → Option (EventType α κ)
  | buttonPress button => if (mapButton button).isSome then some (buttonPress button) else none
  | buttonRelease button =>
      if (mapButton button).isSome then some (buttonRelease button) else none
  | wheel deltaX deltaY =>
      some (wheel (Binary32.toInt64 (Binary32.ofInt deltaX))
        (Binary32.toInt64 (Binary32.ofInt deltaY)))
  | event => some event

/-- A wheel delta that is unchanged as a float: it has at most 24 significant bits, or is the
largest that saturates to itself. -/
def ExactDelta (delta : ℤ) : Prop :=
  Binary32.Representable delta.natAbs ∨ delta = 2 ^ 63 - 1

/-- An event that the protocol carries unchanged. -/
def EventType.Exact : EventType α κ → Prop
  | buttonPress button | buttonRelease button => (mapButton button).isSome = true
  | wheel deltaX deltaY => ExactDelta deltaX ∧ ExactDelta deltaY
  | _ => True

/-- The wheel deltas of an event are 64-bit integers. -/
def EventType.InRange : EventType α κ → Prop
  | wheel deltaX deltaY =>
      (-2 ^ 63 ≤ deltaX ∧ deltaX < 2 ^ 63) ∧ (-2 ^ 63 ≤ deltaY ∧ deltaY < 2 ^ 63)
  | _ => True

/-- The common keys have different names. -/
theorem debug_injective_of_common (name : τ → String) :
    ∀ a ∈ commonKeys (τ := τ), ∀ b ∈ commonKeys (τ := τ),
      a.debug name = b.debug name → a = b := by
  have hnames : (commonKeys.map (Key.debug name)).Nodup := by
    simp only [commonKeys, List.map_cons, List.map_nil, Key.debug]
    decide
  exact List.inj_on_of_nodup_map hnames

/-- A common key is found by its keycode, if no other common key shares it. -/
theorem u32ToKey_keyToU32 {lib : KeyLib (Key τ)}
    (hinjective : ∀ a ∈ commonKeys, ∀ b ∈ commonKeys, lib.keyToU32 a = lib.keyToU32 b → a = b)
    {key : Key τ} (hkey : key ∈ commonKeys) : lib.u32ToKey (lib.keyToU32 key) = some key := by
  cases hfound : lib.u32ToKey (lib.keyToU32 key) with
  | none =>
    have hnone := List.find?_eq_none.mp hfound key hkey
    simp at hnone
  | some found =>
    have hcode : lib.keyToU32 found = lib.keyToU32 key := by
      simpa using List.find?_some hfound
    have hmem : found ∈ commonKeys := List.mem_of_find?_eq_some hfound
    rw [hinjective found hmem key hkey hcode]

/-- The message of a captured event is decoded as it was encoded. -/
theorem deliver_eq (lib : KeyLib (Key τ)) (event : WarpInputEvent F32) :
    event.deliver lib = injectEvent lib event.toMessage := by
  have hfit : event.toMessage.encode.length < 2 ^ 64 := by
    cases event <;>
      simp [WarpInputEvent.toMessage, Message.encode, Bincode.encodeBool, Bincode.encodeU8]
  rw [WarpInputEvent.deliver, Message.decode_encode hfit]

/-- The list has every key but the other names and the unknown codes. -/
theorem mem_commonKeys {key : Key τ} (hcommon : key.isCommon = true) : key ∈ commonKeys := by
  cases key with
  | other key => exact absurd hcommon Bool.false_ne_true
  | unknown code => exact absurd hcommon Bool.false_ne_true
  | _ => simp [commonKeys]

/-- What the client injects for a common event that was handled in remote mode. -/
theorem deliver_callback {lib : KeyLib (Key τ)}
    (hinjective : ∀ a ∈ commonKeys, ∀ b ∈ commonKeys, lib.keyToU32 a = lib.keyToU32 b → a = b)
    (s : CallbackState Float) {input : CaptureInput Float (Key τ)} (hroom : input.room = true)
    (hremote : (callback lib s input).2.remote = true) (hcommon : input.event.common = true) :
    (callback lib s input).2.emitted.bind (WarpInputEvent.deliver lib) = input.event.carried := by
  have hchecked : (s.checkExit input.exitRequested input.hasClient).isRemote = true := hremote
  have hemitted : (callback lib s input).2.emitted =
      ((s.checkExit input.exitRequested input.hasClient).handle lib input.hasClient
        input.event).2.2 := if_pos hroom
  rw [hemitted]
  cases hevent : input.event with
  | mouseMove x y =>
    rw [hevent] at hcommon
    exact absurd hcommon Bool.false_ne_true
  | buttonPress button | buttonRelease button =>
    cases button <;>
      simp [CallbackState.handle, hchecked, SuperShare.mapButton, EventType.carried, deliver_eq,
        WarpInputEvent.toMessage, injectEvent, Button.mapButton]
  | wheel deltaX deltaY =>
    simp [CallbackState.handle, hchecked, EventType.carried, deliver_eq,
      WarpInputEvent.toMessage, injectEvent, CursorNumber.ofWheel]
  | keyPress key | keyRelease key =>
    have hkey : key ∈ commonKeys := by
      rw [hevent] at hcommon
      exact mem_commonKeys hcommon
    simp [CallbackState.handle, hchecked, EventType.carried, deliver_eq,
      WarpInputEvent.toMessage, injectEvent, u32ToKey_keyToU32 hinjective hkey]

/-- An event is carried unchanged exactly if it is exact. -/
theorem carried_eq_some_iff {event : EventType α κ} (hrange : event.InRange) :
    event.carried = some event ↔ event.Exact := by
  cases event with
  | buttonPress button | buttonRelease button =>
    cases hmapped : (mapButton button).isSome <;>
      simp [EventType.carried, EventType.Exact, hmapped]
  | wheel deltaX deltaY =>
    obtain ⟨⟨hxlow, hxhigh⟩, hylow, hyhigh⟩ := hrange
    have hx := Binary32.toInt64_ofInt_iff hxlow hxhigh
    have hy := Binary32.toInt64_ofInt_iff hylow hyhigh
    simp only [EventType.carried, EventType.Exact, ExactDelta, Option.some.injEq,
      EventType.wheel.injEq, hx, hy]
  | _ => simp [EventType.carried, EventType.Exact]

/-- The outcomes of a run in which a common event was handled in remote mode. -/
def remoteCommon (outcomes : List (CaptureOutcome α (Key τ) F32)) :
    List (CaptureOutcome α (Key τ) F32) :=
  outcomes.filter fun o => o.remote && o.input.event.common

/-- **Faithful injection.** If the keycodes of the common keys are different, and the channel has
room, the buttons, wheel movements and common keys that the server captures in remote mode reach
the client in order, without the unknown buttons and with each wheel delta as a float. The client
gets the very same events exactly if none of the buttons is unknown and every delta is exact. -/
theorem injected_eq_carried (name : τ → String) (blake3 : List UInt8 → Vector UInt8 32)
    (hblake3 : ∀ a ∈ commonKeys, ∀ b ∈ commonKeys,
      (keyLib name blake3).keyToU32 a = (keyLib name blake3).keyToU32 b →
        a.debug name = b.debug name)
    (s : CallbackState Float) {inputs : List (CaptureInput Float (Key τ))}
    (hroom : ∀ input ∈ inputs, input.room = true)
    (hrange : ∀ input ∈ inputs, input.event.InRange) :
    let outcomes := remoteCommon (capture (keyLib name blake3) s inputs)
    injected (keyLib name blake3) outcomes = outcomes.filterMap (fun o => o.input.event.carried) ∧
      (injected (keyLib name blake3) outcomes = outcomes.map (fun o => o.input.event) ↔
        ∀ o ∈ outcomes, o.input.event.Exact) := by
  intro outcomes
  have hinjective : ∀ a ∈ commonKeys, ∀ b ∈ commonKeys,
      (keyLib name blake3).keyToU32 a = (keyLib name blake3).keyToU32 b → a = b :=
    fun a ha b hb hcode => debug_injective_of_common name a ha b hb (hblake3 a ha b hb hcode)
  have houtcomes : ∀ o ∈ capture (keyLib name blake3) s inputs,
      o.input.event.InRange ∧ (o.remote = true → o.input.event.common = true →
        o.emitted.bind (WarpInputEvent.deliver (keyLib name blake3)) = o.input.event.carried) := by
    have hstep : ∀ (s : CallbackState Float) (input : CaptureInput Float (Key τ)),
        (input.room = true ∧ input.event.InRange) → True → True ∧
          (input.event.InRange ∧ ((callback (keyLib name blake3) s input).2.remote = true →
            input.event.common = true →
            (callback (keyLib name blake3) s input).2.emitted.bind
              (WarpInputEvent.deliver (keyLib name blake3)) = input.event.carried)) :=
      fun s input hinput _ => ⟨trivial, hinput.2, deliver_callback hinjective s hinput.1⟩
    exact Run.forall_outputs (fun _ => True) hstep trivial
      fun input hinput => ⟨hroom input hinput, hrange input hinput⟩
  have hmem : ∀ o ∈ outcomes, o.input.event.InRange ∧
      o.emitted.bind (WarpInputEvent.deliver (keyLib name blake3)) = o.input.event.carried := by
    intro o ho
    obtain ⟨hrun, hkept⟩ := List.mem_filter.mp ho
    obtain ⟨hremote, hcommon⟩ := Bool.and_eq_true_iff.mp hkept
    exact ⟨(houtcomes o hrun).1, (houtcomes o hrun).2 hremote hcommon⟩
  have hcarried : injected (keyLib name blake3) outcomes =
      outcomes.filterMap (fun o => o.input.event.carried) :=
    List.filterMap_congr fun o ho => (hmem o ho).2
  refine ⟨hcarried, ?_⟩
  rw [hcarried, List.filterMap_eq_map_iff_forall_eq_some]
  exact forall₂_congr fun o ho => carried_eq_some_iff (hmem o ho).1

/-- A hash that tells the names of the keys below apart: a polynomial of the bytes. -/
def polynomialHash (bytes : List UInt8) : Vector UInt8 32 :=
  Vector.ofFn fun i =>
    UInt8.ofNat (bytes.foldl (fun hash byte => hash * 31 + byte.toNat) 0 / 256 ^ i.val)

/-- The common keys and one that is not among them. -/
def keyALib : KeyLib (Key Unit) := keyLib (fun _ => "KeyA") polynomialHash

/-- The keys have different codes. -/
theorem keyALib_separates :
    ∀ a ∈ .other () :: commonKeys, ∀ b ∈ .other () :: commonKeys,
      keyALib.keyToU32 a = keyALib.keyToU32 b →
        a.debug (fun _ => "KeyA") = b.debug fun _ => "KeyA" := by
  decide +kernel

/-- A server in remote mode. -/
def remoteCallback : CallbackState Float :=
  { CallbackState.start 1920 1080 with isRemote := true }

/-- Events that meet a registered client and a channel with room. -/
def undisturbed (events : List (EventType Float (Key Unit))) :
    List (CaptureInput Float (Key Unit)) :=
  events.map fun event => ⟨event, false, true, true⟩

/-- A button, a wheel movement and a common key reach the client. -/
theorem common_events_carried :
    let outcomes := remoteCommon (capture keyALib remoteCallback
      (undisturbed [.buttonPress .left, .wheel 3 (-1), .keyPress .space]))
    injected keyALib outcomes = outcomes.filterMap (fun o => o.input.event.carried) ∧
      outcomes.length = 3 := by
  intro outcomes
  have hroom : ∀ input ∈ undisturbed [.buttonPress .left, .wheel 3 (-1), .keyPress .space],
      input.room = true ∧ input.event.InRange := by
    simp [undisturbed, EventType.InRange]
  refine ⟨(injected_eq_carried (fun _ => "KeyA") polynomialHash (fun a ha b hb => ?_)
    remoteCallback (fun input hinput => (hroom input hinput).1)
    fun input hinput => (hroom input hinput).2).1, by decide +kernel⟩
  exact keyALib_separates a (.tail _ ha) b (.tail _ hb)

/-- Of an unknown button, a large wheel delta, and a letter between two common keys, the client
gets the keys and a smaller delta, although the keys have different codes. -/
theorem strange_events_lost :
    let inputs := undisturbed [.keyPress .space, .buttonPress (.unknown 8), .wheel 16777217 0,
      .keyPress (.other ()), .keyPress .tab]
    let outcomes := capture keyALib remoteCallback inputs
    (∀ a ∈ .other () :: commonKeys, ∀ b ∈ .other () :: commonKeys,
        keyALib.keyToU32 a = keyALib.keyToU32 b →
          a.debug (fun _ => "KeyA") = b.debug fun _ => "KeyA") ∧
      (∀ o ∈ outcomes, o.remote = true) ∧
      injected keyALib outcomes = [.keyPress .space, .wheel 16777216 0, .keyPress .tab] ∧
      injected keyALib outcomes ≠ inputs.map (fun input => input.event) := by
  intro inputs outcomes
  refine ⟨keyALib_separates, by decide +kernel, rfl, fun h => ?_⟩
  have hlength : (injected keyALib outcomes).length =
      (inputs.map fun input => input.event).length := congrArg List.length h
  exact absurd hlength (by decide +kernel)

end SuperShare
