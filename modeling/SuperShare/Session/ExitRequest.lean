import SuperShare.Session.Client

/-!
# Requests to return

The client asks to return at each delta that hits its left edge, and the request is one flag
without a session. The callback clears the flag at every event, so a request that arrives in
local mode ends nothing. One that arrives in a later session than that of its delta ends the later
session, and nothing else goes wrong.
-/

namespace SuperShare

variable {α φ κ : Type}

namespace RemoteSystem

/-- A request to return that the server receives in remote mode comes from a delta of the
session under way, or one that does has set the flag already. -/
def LeaveInSession (s : RemoteSystem α φ) : RemoteEvent α κ → Prop
  | .deliverLeave => s.callback.isRemote = true → ∀ k ∈ s.leaves.head?,
      k = s.session ∨ s.session ∈ s.setters
  | _ => True

instance (s : RemoteSystem α φ) : ∀ event : RemoteEvent α κ, Decidable (s.LeaveInSession event)
  | .deliverLeave => inferInstanceAs (Decidable (_ → ∀ k ∈ s.leaves.head?, _))
  | .input .. | .forward | .deliverControl | .deliverData => isTrue trivial

/-- When the callback leaves remote mode because the flag is set, a request that set it comes
from a delta of the session that ends. -/
def EndsOwnSession (s : RemoteSystem α φ) : RemoteEvent α κ → Prop
  | .input .. => s.exitRemote = true → s.callback.isRemote = true → s.session ∈ s.setters
  | _ => True

variable [NatCast φ] [Zero φ] [Add φ] [LinearOrder φ] [CursorNumber α φ]
variable {s : RemoteSystem α φ}

/-- In remote mode the flag is set only after a request of the session under way. -/
def OwnRequest (s : RemoteSystem α φ) : Prop :=
  s.exitRemote = true → s.callback.isRemote = true → s.session ∈ s.setters

/-- An event at which no request of another session arrives keeps the requests to their
session. -/
theorem OwnRequest.step (h : s.OwnRequest) (lib : KeyLib κ) (screen : ClientScreen)
    {event : RemoteEvent α κ} (hleave : s.LeaveInSession event) :
    (s.step lib screen event).OwnRequest := by
  cases event with
  | input event hasClient room =>
    intro hset
    exact absurd hset (by simp [RemoteSystem.step, RemoteSystem.capture])
  | forward =>
    simp only [RemoteSystem.step, RemoteSystem.forward]
    split
    · exact h
    · split
      · exact h
      · exact h
      all_goals split <;> exact h
  | deliverControl =>
    simp only [RemoteSystem.step, RemoteSystem.deliverControl]
    split <;> exact h
  | deliverData =>
    simp only [RemoteSystem.step, RemoteSystem.deliverData]
    split <;> exact h
  | deliverLeave =>
    simp only [RemoteSystem.step, RemoteSystem.deliverLeave]
    split
    · exact h
    · rename_i k leaves hleaves
      intro _ hremote
      rcases hleave hremote k (by simp [hleaves]) with rfl | hset
      · exact List.mem_cons_self
      · exact List.mem_cons_of_mem k hset

/-- **The request that ends a session.** In a run from the start in which every request that the
server receives in remote mode comes from a delta of the session under way, or finds the flag set
by one, a session that ends because the flag is set ends at a request of its own. -/
theorem session_ends_itself (lib : KeyLib κ) (screenWidth screenHeight : UInt32)
    (screen : ClientScreen) {events : List (RemoteEvent α κ)}
    (h : Run.Along (step lib screen) (LeaveInSession (φ := φ))
      (start screenWidth screenHeight screen) events) :
    Run.Along (step lib screen) (EndsOwnSession (φ := φ))
      (start screenWidth screenHeight screen) events := by
  refine Run.Along.imp OwnRequest ?_ h ?_
  · intro s event hleave hown
    refine ⟨hown.step lib screen hleave, ?_⟩
    cases event with
    | input => exact hown
    | _ => trivial
  · intro hset
    exact absurd hset Bool.false_ne_true

/-- The cursor crosses into the client and back with two deltas, each of which hits the left
edge. The first request ends the session, and the next motion begins another. -/
def crossingTwice : List (RemoteEvent ℚ String) :=
  [.input (.mouseMove 99 50) true true, .input (.mouseMove 89 50) true true,
    .input (.mouseMove 79 50) true true, .forward, .forward, .forward,
    .deliverControl, .deliverData, .deliverData, .deliverLeave, .input (.mouseMove 99 50) true true]

/-- The first request ends its own session. -/
theorem session_ends_itself_once :
    Run.Along (step .constant .wide) (EndsOwnSession (φ := ℚ)) (start 100 100 .wide)
      crossingTwice := by
  have hleaves : Run.Along (step .constant .wide) (LeaveInSession (φ := ℚ))
      (start 100 100 .wide) crossingTwice := by decide +kernel
  exact session_ends_itself .constant 100 100 .wide hleaves

/-- The second request of the first session ends the second session. -/
theorem session_ended_by_earlier :
    ¬ Run.Along (step .constant .wide) (EndsOwnSession (φ := ℚ)) (start 100 100 .wide)
      (crossingTwice ++ [.deliverLeave, .input (.mouseMove 99 50) true true]) := by
  intro h
  obtain ⟨-, hlast, -⟩ := (Run.along_append.mp h).2
  exact absurd (hlast (by decide +kernel) (by decide +kernel)) (by decide +kernel)

end RemoteSystem

end SuperShare
