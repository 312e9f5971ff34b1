import Mathlib.Data.Nat.Basic

/-!
# Reference counts

The count of an object's references, with the calls that the object's release function has had.
`RefCount.Held c n` says that a count is right for `n` holders: it counts them, and the object was released
once if nobody holds it and not at all otherwise.

* `Held.init`, `Held.get`, `Held.put` — **PROVED**: creating, taking and putting keep the count right.
-/

namespace KernelSU.Lib

/-- A reference count, and how often the object behind it was released. -/
structure RefCount where
  refs : ℕ
  released : ℕ
  deriving DecidableEq, Repr

namespace RefCount

/-- What a count is set to that was put too often. -/
def saturated : ℕ := 0xC0000000

/-- `kref_init`. -/
def init : RefCount := ⟨1, 0⟩

/-- `kref_get_unless_zero`; `none` where it fails. -/
def getUnlessZero (c : RefCount) : Option RefCount :=
  if c.refs = 0 then none else some { c with refs := c.refs + 1 }

/-- `kref_put`. -/
def put (c : RefCount) : RefCount :=
  if c.refs = 0 then { c with refs := saturated }
  else if c.refs = 1 then ⟨0, c.released + 1⟩
  else { c with refs := c.refs - 1 }

/-- The count is right for `n` holders. -/
structure Held (c : RefCount) (n : ℕ) : Prop where
  refs : c.refs = n
  released : c.released = if n = 0 then 1 else 0

namespace Held

variable {c : RefCount} {n : ℕ}

theorem init : Held RefCount.init 1 := ⟨rfl, rfl⟩

theorem get (h : Held c n) {c' : RefCount} (hget : c.getUnlessZero = some c') : Held c' (n + 1) := by
  rw [getUnlessZero, h.refs] at hget
  split at hget
  · exact absurd hget (by simp)
  · next hn =>
    obtain rfl : { c with refs := n + 1 } = c' := Option.some.inj hget
    exact ⟨rfl, by rw [h.released, if_neg hn, if_neg (Nat.succ_ne_zero n)]⟩

theorem put (h : Held c (n + 1)) : Held c.put n := by
  have hrefs : c.refs = n + 1 := h.refs
  have hreleased : c.released = 0 := by rw [h.released, if_neg (Nat.succ_ne_zero n)]
  rw [RefCount.put, if_neg (by omega)]
  split
  · obtain rfl : n = 0 := by omega
    exact ⟨rfl, by rw [hreleased]; rfl⟩
  · exact ⟨by simp only [hrefs]; omega, by simp only [hreleased]; rw [if_neg (by omega)]⟩

end Held

end RefCount

end KernelSU.Lib
