import Mathlib.Data.List.TakeWhile
import KernelSU.Sulog.EventParse

/-!
# What the log keeps of an argument vector

Kernels before 6.16 return 0 for an empty string, and `ksu_sulog_flatten_argv` takes 0 for a fault: it
throws away what it has, unless the room was full before.

* `argLine` — the line of arguments that the log is for;
* `flattenArgv_keepsArguments_iff` — **PROVED**: when the buffer gets that line;
* `flattenArgv_loses` — **PROVED**: an empty argument that hides the others.
-/

namespace KernelSU.Sulog

open Lib Lib.Bytes

/-- A readable string. -/
abbrev Arg := {bytes : List UInt8 // 0 ∉ bytes}

/-- The vector of pointers to these strings, with its null pointer. -/
def argvOf (args : List Arg) (i : ℕ) : UserArg :=
  match args[i]? with
  | some arg => .ptr (.str arg.1 arg.2)
  | none => .null

/-- The non-empty arguments, each cut to 255 bytes, with single spaces between them. -/
def argLine (args : List Arg) : List UInt8 :=
  List.intercalate [0x20] ((args.filter (·.1 ≠ [])).map (·.1.take 255))

/-- The buffer gets the line of arguments, cut to its size less one byte, and a NUL, and the length says so. -/
structure KeepsArguments (args : List Arg) (dst : List UInt8) : Prop where
  filled : Filled dst (flattenArgv false (some (argvOf args)) (fun _ => false) dst dst.length)
    ((argLine args).take (dst.length - 1))
  size : (flattenArgv false (some (argvOf args)) (fun _ => false) dst dst.length).1 ≤ dst.length

/-! ### The line of arguments -/

theorem intercalate_merge (sep text arg : List UInt8) (rest : List (List UInt8)) :
    sep.intercalate ((text ++ (sep ++ arg)) :: rest) = sep.intercalate (text :: arg :: rest) := by
  cases rest with
  | nil => simp only [List.intercalate_cons_cons, List.intercalate_singleton, List.append_assoc]
  | cons next rest => simp only [List.intercalate_cons_cons, List.append_assoc]

theorem foldl_joinArg_of_ne_nil {text : List UInt8} (htext : text ≠ []) (args : List Arg) :
    (args.map (·.1.take 255)).foldl joinArg text =
      List.intercalate [0x20] (text :: (args.filter (·.1 ≠ [])).map (·.1.take 255)) := by
  induction args generalizing text with
  | nil => exact List.intercalate_singleton.symm
  | cons arg args ih =>
    rw [List.map_cons, List.foldl_cons]
    by_cases harg : arg.1 = []
    · have hjoin : joinArg text (arg.1.take 255) = text := by rw [harg, List.take_nil, joinArg, if_pos rfl]
      rw [hjoin, ih htext, List.filter_cons_of_neg (by simpa using harg)]
    · have htake : arg.1.take 255 ≠ [] := by simpa using harg
      have hjoin : joinArg text (arg.1.take 255) = text ++ 0x20 :: arg.1.take 255 := by
        rw [joinArg, if_neg htake, if_neg htext]
      rw [hjoin, ih (by simp), List.filter_cons_of_pos (by simpa using harg), List.map_cons]
      exact intercalate_merge [0x20] text (arg.1.take 255) _

/-- The line is what joining the arguments one by one gives. -/
theorem foldl_joinArg_eq_argLine (args : List Arg) : (args.map (·.1.take 255)).foldl joinArg [] = argLine args := by
  induction args with
  | nil => rfl
  | cons arg args ih =>
    rw [List.map_cons, List.foldl_cons]
    by_cases harg : arg.1 = []
    · have hjoin : joinArg [] (arg.1.take 255) = [] := by rw [harg, List.take_nil, joinArg, if_pos rfl]
      rw [hjoin, ih, argLine, argLine, List.filter_cons_of_neg (by simpa using harg)]
    · have htake : arg.1.take 255 ≠ [] := by simpa using harg
      have hjoin : joinArg [] (arg.1.take 255) = arg.1.take 255 := by rw [joinArg, if_neg htake, if_pos rfl]
      rw [hjoin, foldl_joinArg_of_ne_nil htake, argLine, List.filter_cons_of_pos (by simpa using harg),
        List.map_cons]

/-- Only empty arguments add nothing. -/
theorem foldl_joinArg_eq_self_iff (args : List Arg) (text : List UInt8) :
    (args.map (·.1.take 255)).foldl joinArg text = text ↔ ∀ arg ∈ args, arg.1 = [] := by
  induction args generalizing text with
  | nil => exact ⟨fun _ arg harg => absurd harg List.not_mem_nil, fun _ => rfl⟩
  | cons arg args ih =>
    rw [List.map_cons, List.foldl_cons, List.forall_mem_cons]
    by_cases harg : arg.1 = []
    · have hjoin : joinArg text (arg.1.take 255) = text := by rw [harg, List.take_nil, joinArg, if_pos rfl]
      rw [hjoin, ih]
      exact (and_iff_right harg).symm
    · refine ⟨fun h => ?_, fun h => absurd h.1 harg⟩
      have htake : arg.1.take 255 ≠ [] := by simpa using harg
      have hlen := (prefix_foldl_joinArg (args.map (·.1.take 255)) (joinArg text (arg.1.take 255))).length_le
      have hpos := List.length_pos_iff.mpr htake
      rw [h, joinArg, if_neg htake] at hlen
      split at hlen
      · rename_i htext
        rw [htext, List.length_nil] at hlen
        omega
      · rw [List.length_append, List.length_cons] at hlen
        omega

/-! ### The arguments that are seen -/

/-- The arguments in front of the first empty one. -/
def beforeEmpty (args : List Arg) : List Arg := args.takeWhile (·.1 ≠ [])

theorem argvOf_of_lt {args : List Arg} {i : ℕ} (hi : i < args.length) :
    argvOf args i = .ptr (.str (args[i]).1 (args[i]).2) := by
  rw [argvOf, List.getElem?_eq_getElem hi]

/-- **What the loop sees**: the arguments in front of an empty one, which it takes for a fault. -/
theorem keptArgs_argvOf (args : List Arg) (n i : ℕ) :
    keptArgs false (argvOf args) (fun _ => false) n i =
      ((beforeEmpty ((args.drop i).take n)).map (·.1.take 255), ((args.drop i).take n).any (·.1 = [])) := by
  induction n generalizing i with
  | zero => rfl
  | succ n ih =>
    rw [keptArgs, if_neg Bool.false_ne_true]
    rcases Nat.lt_or_ge i args.length with hi | hi
    · rw [argvOf_of_lt hi, List.drop_eq_getElem_cons hi, List.take_succ_cons]
      dsimp only
      by_cases harg : (args[i]).1 = []
      · simp [UserStr.kept, beforeEmpty, harg]
      · simp [UserStr.kept, beforeEmpty, harg, ih]
    · have hnone : argvOf args i = .null := by rw [argvOf, List.getElem?_eq_none hi]
      rw [hnone, List.drop_eq_nil_of_le hi, List.take_nil]
      rfl

theorem Filled.unique {dst text text' : List UInt8} {r : ℕ × List UInt8} (h : Filled dst r text)
    (h' : Filled dst r text') : text = text' :=
  List.append_cancel_right (h.text.symm.trans h'.text)

theorem keepsArguments_iff {args : List Arg} {dst : List UInt8} (hpos : 0 < dst.length) :
    KeepsArguments args dst ↔
      capturedArgv false (some (argvOf args)) (fun _ => false) (dst.length - 1) =
        (argLine args).take (dst.length - 1) := by
  have hholds : Filled dst (flattenArgv false (some (argvOf args)) (fun _ => false) dst dst.length)
      (capturedArgv false (some (argvOf args)) (fun _ => false) (dst.length - 1)) := flattenArgv_holds _ _ hpos
  constructor
  · exact fun h => hholds.unique h.filled
  · intro h
    rw [h] at hholds
    refine ⟨hholds, ?_⟩
    rw [hholds.size, List.length_take]
    omega

/-- The arguments that the loop has turns for, `2 ^ 31 - 1` of them. -/
def firstArgs (args : List Arg) : List Arg := args.take KSU_SULOG_MAX_ARG_STRINGS

theorem capturedArgv_argvOf (args : List Arg) (room : ℕ) :
    capturedArgv false (some (argvOf args)) (fun _ => false) room =
      if (firstArgs args).any (·.1 = []) = true ∧ (argLine (beforeEmpty (firstArgs args))).length < room then []
      else (argLine (beforeEmpty (firstArgs args))).take room := by
  rw [capturedArgv, keptArgs_argvOf, List.drop_zero, argvText, foldl_joinArg_eq_argLine]
  rfl

theorem argLine_append (before behind : List Arg) :
    argLine (before ++ behind) = (behind.map (·.1.take 255)).foldl joinArg (argLine before) := by
  rw [← foldl_joinArg_eq_argLine, ← foldl_joinArg_eq_argLine before, List.map_append, List.foldl_append]

theorem beforeEmpty_prefix (args : List Arg) : beforeEmpty (firstArgs args) <+: args :=
  (List.takeWhile_prefix _).trans (List.take_prefix _ args)

theorem beforeEmpty_of_forall {args : List Arg} (h : ∀ arg ∈ args, arg.1 ≠ []) : beforeEmpty args = args :=
  List.takeWhile_eq_self_iff.mpr fun arg harg => decide_eq_true (h arg harg)

theorem argLine_eq_nil_iff (args : List Arg) : argLine args = [] ↔ ∀ arg ∈ args, arg.1 = [] := by
  rw [← foldl_joinArg_eq_argLine]
  exact foldl_joinArg_eq_self_iff args []

/-- A text that does not fill the room is what is cut from a longer one only if that is not longer. -/
theorem eq_take_iff_of_prefix {text line : List UInt8} {room : ℕ} (hfront : text <+: line)
    (hlt : text.length < room) : text = line.take room ↔ line = text := by
  constructor
  · intro h
    have hlength := congrArg List.length h
    rw [List.length_take] at hlength
    rw [h, List.take_of_length_le (by omega)]
  · rintro rfl
    exact (List.take_of_length_le hlt.le).symm

/-- **When the log keeps the arguments**, with a kernel that returns 0 for the empty string: the arguments in
front of the first empty one fill the room; or all are empty; or none is empty among those that the loop has
turns for, and all others are. -/
theorem flattenArgv_keepsArguments_iff (args : List Arg) {dst : List UInt8} (hpos : 0 < dst.length) :
    KeepsArguments args dst ↔
      dst.length - 1 ≤ (argLine (beforeEmpty (firstArgs args))).length ∨ (∀ arg ∈ args, arg.1 = []) ∨
        (∀ arg ∈ firstArgs args, arg.1 ≠ []) ∧ ∀ arg ∈ args.drop KSU_SULOG_MAX_ARG_STRINGS, arg.1 = [] := by
  rw [keepsArguments_iff hpos, capturedArgv_argvOf]
  generalize dst.length - 1 = room
  obtain ⟨behind, hsplit⟩ := beforeEmpty_prefix args
  have hline := argLine_append (beforeEmpty (firstArgs args)) behind
  rw [hsplit] at hline
  have hfront : argLine (beforeEmpty (firstArgs args)) <+: argLine args := hline ▸ prefix_foldl_joinArg _ _
  rcases Nat.lt_or_ge (argLine (beforeEmpty (firstArgs args))).length room with hlt | hfull
  · rw [or_iff_right (Nat.not_le.mpr hlt)]
    by_cases hempty : (firstArgs args).any (·.1 = []) = true
    · -- an empty argument comes before the room is full: everything goes
      have hroom : room ≠ 0 := by omega
      have hsome : ¬∀ arg ∈ firstArgs args, arg.1 ≠ [] := by
        obtain ⟨arg, harg, hnil⟩ := List.any_eq_true.mp hempty
        exact fun h => h arg harg (of_decide_eq_true hnil)
      rw [if_pos ⟨hempty, hlt⟩, or_iff_left fun h => hsome h.1, eq_comm, List.take_eq_nil_iff, or_iff_right hroom,
        argLine_eq_nil_iff]
    · have hall : ∀ arg ∈ firstArgs args, arg.1 ≠ [] := fun arg harg hnil =>
        hempty (List.any_eq_true.mpr ⟨arg, harg, decide_eq_true hnil⟩)
      have hbehind : behind = args.drop KSU_SULOG_MAX_ARG_STRINGS := by
        rw [beforeEmpty_of_forall hall, firstArgs] at hsplit
        exact List.append_cancel_left (hsplit.trans (List.take_append_drop _ args).symm)
      have hself : argLine args = argLine (beforeEmpty (firstArgs args)) ↔
          ∀ arg ∈ args.drop KSU_SULOG_MAX_ARG_STRINGS, arg.1 = [] := by
        rw [hline, foldl_joinArg_eq_self_iff, hbehind]
      rw [if_neg fun h => hempty h.1, List.take_of_length_le hlt.le, eq_take_iff_of_prefix hfront hlt, hself]
      constructor
      · exact fun h => .inr ⟨hall, h⟩
      · rintro (h | h)
        · exact fun arg harg => h arg (List.mem_of_mem_drop harg)
        · exact h.2
  · have hsame : (argLine (beforeEmpty (firstArgs args))).take room = (argLine args).take room := by
      obtain ⟨rest, hrest⟩ := hfront
      rw [← hrest, List.take_append_of_le_length hfull]
    rw [if_neg fun h => absurd h.2 (Nat.not_lt.mpr hfull), hsame]
    exact ⟨fun _ => .inl hfull, fun _ => rfl⟩

/-! ### An empty argument -/

/-- `su id`. -/
def plainCommand : List Arg := [⟨asBytes "su", by decide⟩, ⟨asBytes "id", by decide⟩]

/-- `su "" id`. -/
def emptyCommand : List Arg := [⟨asBytes "su", by decide⟩, ⟨[], by decide⟩, ⟨asBytes "id", by decide⟩]

/-- Sixteen bytes of room. -/
def sixteen : List UInt8 := List.replicate 16 0xaa

/-- Without the empty argument the line is kept. -/
theorem flattenArgv_keepsArguments_plain : KeepsArguments plainCommand sixteen := by
  have hall : plainCommand.all (·.1 ≠ []) = true := rfl
  refine (flattenArgv_keepsArguments_iff plainCommand (by decide)).mpr (.inr (.inr ⟨?_, ?_⟩))
  · exact fun arg harg => of_decide_eq_true (List.all_eq_true.mp hall arg (List.mem_of_mem_take harg))
  · exact fun arg harg => absurd harg List.not_mem_nil

/-- **An empty argument hides the others.** -/
theorem flattenArgv_loses : ¬∀ (args : List Arg) (dst : List UInt8), 0 < dst.length → KeepsArguments args dst := by
  intro h
  have hkeeps := (keepsArguments_iff (by decide)).mp (h emptyCommand sixteen (by decide))
  have hfirst : firstArgs emptyCommand = emptyCommand := List.take_of_length_le (by decide)
  rw [capturedArgv_argvOf, hfirst] at hkeeps
  exact absurd hkeeps (by decide)

end KernelSU.Sulog
