import KernelSU.Ksud.Sulog
import KernelSU.Sulog.Event

/-!
# What `ksud` reads of a captured event

The strings a capture is meant to keep are declared first, with no buffer in them: a file name is cut to
255 bytes, and the arguments, each cut to 255 bytes and without the empty ones, are joined with spaces and
cut to the room that is left.

* `copyFilename_holds`, `flattenArgv_holds` — **PROVED**: the copies put these strings into the payload,
  each with its NUL;
* `parse_emit` — **PROVED**: `SulogEvent::parse` accepts what is pushed and gives the captured fields and
  strings back.
-/

namespace KernelSU.Sulog

open Lib Lib.Bytes

/-! ### The captured strings -/

section Captured

variable (countsEmpty : Bool)

/-- What a copy with 256 bytes of room keeps of a string; an empty string whose NUL is not counted looks like
a fault. -/
def UserStr.kept : UserStr → Option (List UInt8)
  | .str bytes _ => if bytes = [] ∧ countsEmpty = false then none else some (bytes.take 255)
  | .fault _ => none

/-- The captured file name. -/
def capturedFilename (filenameUser : Option UserStr) : List UInt8 := (filenameUser.bind (UserStr.kept countsEmpty)).getD []

/-- The bytes a file name takes in the payload; after a string that fits, one more than its NUL. -/
def filenameSize : Option UserStr → ℕ
  | some (.str bytes _) => if bytes = [] ∧ countsEmpty = false then 1 else min (bytes.length + 2) 256
  | some (.fault _) => 1
  | none => 1

/-- The arguments up to the first null pointer, signal or fault, and whether a fault ended them. -/
def keptArgs (argv : ℕ → UserArg) (fatalSignalPending : ℕ → Bool) : ℕ → ℕ → List (List UInt8) × Bool
  | 0, _ => ([], false)
  | n + 1, i =>
    if fatalSignalPending i then ([], false)
    else match argv i with
      | .null => ([], false)
      | .fault => ([], true)
      | .ptr s =>
        match s.kept countsEmpty with
        | none => ([], true)
        | some arg =>
          (arg :: (keptArgs argv fatalSignalPending n (i + 1)).1,
            (keptArgs argv fatalSignalPending n (i + 1)).2)

/-- A text, a space unless the text is empty, and an argument; an empty argument adds nothing. -/
def joinArg (text arg : List UInt8) : List UInt8 :=
  if arg = [] then text else if text = [] then arg else text ++ 0x20 :: arg

/-- The text of the arguments in `room` bytes: nothing is kept when a fault comes before the room is
full. -/
def argvText (room : ℕ) (text : List UInt8) (args : List (List UInt8) × Bool) : List UInt8 :=
  if args.2 = true ∧ (args.1.foldl joinArg text).length < room then []
  else (args.1.foldl joinArg text).take room

/-- The captured arguments. -/
def capturedArgv (argvUser : Option (ℕ → UserArg)) (fatalSignalPending : ℕ → Bool) (room : ℕ) :
    List UInt8 :=
  match argvUser with
  | none => []
  | some argv => argvText room [] (keptArgs countsEmpty argv fatalSignalPending KSU_SULOG_MAX_ARG_STRINGS 0)

end Captured

variable {countsEmpty : Bool}

/-! ### Strings in buffers -/

/-- A string ends at its NUL. -/
theorem cString_nul {s : List UInt8} (hs : 0 ∉ s) (r : List UInt8) : cString (s ++ 0 :: r) = s := by
  rw [cString, List.takeWhile_append_of_pos]
  · simp
  · intro b hb
    simp only [bne_iff_ne, ne_eq]
    rintro rfl
    exact hs hb

/-- A buffer overwritten from its start on. -/
theorem patch_zero (dst w : List UInt8) : patch dst 0 w = w ++ dst.drop w.length := by
  simp [patch]

theorem notMem_take {s : List UInt8} (hs : 0 ∉ s) (n : ℕ) : 0 ∉ s.take n := fun h =>
  hs (List.mem_of_mem_take h)

/-- A copied string, whether it fits or not, whose NUL is counted. -/
theorem strncpyFromUserNofault_str {bytes : List UInt8} (hbytes : 0 ∉ bytes) {count : ℕ} (hcount : 0 < count)
    (hcounted : ¬(bytes = [] ∧ countsEmpty = false)) :
    strncpyFromUserNofault countsEmpty (.str bytes hbytes) count =
      (((min (bytes.length + 1) count : ℕ) : ℤ), bytes.take (count - 1) ++ [0]) := by
  simp only [strncpyFromUserNofault, if_neg hcounted]
  split
  · rw [List.take_of_length_le (by omega), Nat.min_eq_left (by omega), Nat.cast_succ]
  · rw [Nat.min_eq_right (by omega)]

/-- The copy of an argument keeps what it should. -/
theorem fetchArg_eq (s : UserStr) : fetchArg countsEmpty s = s.kept countsEmpty := by
  cases s with
  | fault copied => rfl
  | str bytes hbytes =>
    by_cases hcounted : bytes = [] ∧ countsEmpty = false
    · simp only [fetchArg, strncpyFromUserNofault, UserStr.kept, if_pos hcounted, le_refl, if_true]
    have hcopy := strncpyFromUserNofault_str hbytes (show 0 < 256 by decide) hcounted
    have hlen : (bytes.take 255).length = min 255 bytes.length := List.length_take
    have hread : (bytes.take 255 ++ [0]).take (strnlen (bytes.take 255 ++ [0]) 256) = bytes.take 255 := by
      have hall : (bytes.take 255 ++ [0]).take 256 = bytes.take 255 ++ [0] := by
        refine List.take_of_length_le ?_
        rw [List.length_append, hlen, List.length_singleton]
        omega
      rw [strnlen, hall, cString_nul (notMem_take hbytes 255), List.take_left]
    -- the NUL stored over the last byte of a full chunk is there already
    have hset : 256 ≤ bytes.length + 1 →
        (bytes.take 255 ++ [0]).set 255 0 = bytes.take 255 ++ [0] := by
      intro hfull
      have hlast : 255 - (bytes.take 255).length = 0 := by omega
      rw [List.set_append_right _ _ (by omega), hlast]
      rfl
    have hpos : ¬((min (bytes.length + 1) 256 : ℕ) : ℤ) ≤ 0 := by omega
    simp only [fetchArg, KSU_SULOG_MAX_ARG_CHUNK, hcopy, UserStr.kept, Nat.reduceSub, if_neg hpos, if_neg hcounted]
    split
    · next hfull => rw [hset (by omega), hread]
    · rw [hread]

/-! ### The file name -/

/-- A copied string: the length given counts it and its NUL at least, and it stands at the start of the
buffer. -/
structure Copied (dst : List UInt8) (dstLen : ℕ) (r : ℕ × List UInt8) (text : List UInt8) : Prop where
  length : r.2.length = dst.length
  range : text.length < r.1 ∧ r.1 ≤ dstLen
  text : ∃ junk, r.2.take r.1 = text ++ 0 :: junk

theorem copied_copyEmptyString {dst : List UInt8} {dstLen : ℕ} (hpos : 0 < dstLen)
    (hfits : dstLen ≤ dst.length) : Copied dst dstLen (copyEmptyString dst) [] := by
  refine ⟨List.length_set, ⟨Nat.one_pos, hpos⟩, [], ?_⟩
  cases dst with
  | nil => exact absurd hfits (by simp; omega)
  | cons b bs => rfl

/-- The empty string in a buffer that a copy has written to already. -/
theorem copied_copyEmptyString_patch {dst written : List UInt8} (hwritten : written.length ≤ 256)
    (hfits : 256 ≤ dst.length) : Copied dst 256 (copyEmptyString (patch dst 0 written)) [] := by
  have hpatch : (patch dst 0 written).length = dst.length := patch_length (by omega)
  obtain ⟨hlen, hrange, htext⟩ := copied_copyEmptyString (show 0 < 256 by decide) (hfits.trans_eq hpatch.symm)
  exact ⟨hlen.trans hpatch, hrange, htext⟩

theorem copied_of_nul {dst text : List UInt8} {dstLen n : ℕ} (htext : text.length < n) (hn : n ≤ dstLen)
    (hfits : dstLen ≤ dst.length) :
    Copied dst dstLen (n, text ++ 0 :: dst.drop (text.length + 1)) text := by
  refine ⟨?_, ⟨htext, hn⟩, (dst.drop (text.length + 1)).take (n - text.length - 1), ?_⟩
  · simp only [List.length_append, List.length_cons, List.length_drop]
    omega
  · obtain ⟨k, rfl⟩ := Nat.exists_eq_add_of_lt htext
    have hk : text.length + k + 1 - text.length - 1 = k := by omega
    rw [List.take_append, List.take_of_length_le (by omega), hk, Nat.add_assoc,
      Nat.add_sub_cancel_left, List.take_succ_cons]

/-- **The file name is copied.** -/
theorem copyFilename_holds (filenameUser : Option UserStr) {dst : List UInt8} (hfits : 256 ≤ dst.length) :
    Copied dst 256 (copyFilename countsEmpty filenameUser dst 256) (capturedFilename countsEmpty filenameUser) := by
  rcases filenameUser with _ | ⟨bytes, hbytes⟩ | copied
  · exact copied_copyEmptyString (by decide) hfits
  · by_cases hcounted : bytes = [] ∧ countsEmpty = false
    · have hnone : capturedFilename countsEmpty (some (.str bytes hbytes)) = [] := by
        simp only [capturedFilename, Option.bind_some, UserStr.kept, if_pos hcounted, Option.getD_none]
      have hempty : copyFilename countsEmpty (some (.str bytes hbytes)) dst 256 =
          copyEmptyString (patch dst 0 [0]) := by
        simp only [copyFilename, strncpyFromUserNofault, if_pos hcounted, OfNat.ofNat_ne_zero, if_false, le_refl,
          if_true]
      rw [hnone, hempty]
      exact copied_copyEmptyString_patch (by decide) hfits
    have hcopy := strncpyFromUserNofault_str hbytes (show 0 < 256 by decide) hcounted
    have hlen : (bytes.take 255).length = min 255 bytes.length := List.length_take
    have hpos : ¬((min (bytes.length + 1) 256 : ℕ) : ℤ) ≤ 0 := by omega
    have hwritten : patch dst 0 (bytes.take 255 ++ [0]) =
        bytes.take 255 ++ 0 :: dst.drop ((bytes.take 255).length + 1) := by
      rw [patch_zero, List.length_append, List.length_singleton, List.append_assoc, List.singleton_append]
    have hkept : capturedFilename countsEmpty (some (.str bytes hbytes)) = bytes.take 255 := by
      simp only [capturedFilename, Option.bind_some, UserStr.kept, if_neg hcounted, Option.getD_some]
    rw [hkept]
    simp only [copyFilename, hcopy, Nat.reduceSub, hwritten, if_neg hpos, OfNat.ofNat_ne_zero, if_false]
    split
    · next hfull =>
      -- the string fills the buffer, and its last byte is NUL already
      have hlast : 255 - (bytes.take 255).length = 0 := by omega
      rw [List.set_append_right _ _ (by omega), hlast, List.set_cons_zero]
      exact copied_of_nul (by omega) le_rfl hfits
    · exact copied_of_nul (by omega) (by omega) hfits
  · have hfault : copyFilename countsEmpty (some (.fault copied)) dst 256 =
        copyEmptyString (patch dst 0 (copied.take 256)) := rfl
    rw [hfault]
    exact copied_copyEmptyString_patch (by rw [List.length_take]; omega) hfits

theorem copyFilename_size (filenameUser : Option UserStr) (dst : List UInt8) :
    (copyFilename countsEmpty filenameUser dst 256).1 = filenameSize countsEmpty filenameUser := by
  rcases filenameUser with _ | ⟨bytes, hbytes⟩ | copied
  · rfl
  · by_cases hcounted : bytes = [] ∧ countsEmpty = false
    · simp only [copyFilename, strncpyFromUserNofault, filenameSize, if_pos hcounted, OfNat.ofNat_ne_zero, if_false,
        le_refl, if_true, copyEmptyString]
    have hcopy := strncpyFromUserNofault_str hbytes (show 0 < 256 by decide) hcounted
    have hpos : ¬((min (bytes.length + 1) 256 : ℕ) : ℤ) ≤ 0 := by omega
    simp only [copyFilename, hcopy, Nat.reduceSub, if_neg hpos, OfNat.ofNat_ne_zero, if_false, filenameSize,
      if_neg hcounted]
    split
    · show 256 = _
      omega
    · show ((min (bytes.length + 1) 256 : ℕ) : ℤ).toNat + 1 = _
      omega
  · rfl

/-! ### The arguments -/

/-- A text that fills its bytes, and the NUL behind it. -/
structure Filled (dst : List UInt8) (r : ℕ × List UInt8) (text : List UInt8) : Prop where
  length : r.2.length = dst.length
  size : r.1 = text.length + 1
  text : r.2.take r.1 = text ++ [0]

theorem Filled.of_length {dst dst' text : List UInt8} {r : ℕ × List UInt8} (h : Filled dst' r text)
    (hlen : dst'.length = dst.length) : Filled dst r text :=
  ⟨h.length.trans hlen, h.size, h.text⟩

theorem filled_copyEmptyString {dst : List UInt8} (hpos : dst ≠ []) : Filled dst (copyEmptyString dst) [] := by
  obtain ⟨b, bs, rfl⟩ := List.exists_cons_of_ne_nil hpos
  exact ⟨rfl, rfl, rfl⟩

/-- What is written after some bytes leaves those as they were. -/
theorem take_patch {dst : List UInt8} {used : ℕ} (w : List UInt8) (hused : used + w.length ≤ dst.length) :
    (patch dst used w).take (used + w.length) = dst.take used ++ w := by
  rw [patch, ← List.append_assoc]
  refine List.take_left' ?_
  rw [List.length_append, List.length_take]
  omega

theorem take_set {dst : List UInt8} {used : ℕ} (b : UInt8) (hused : used < dst.length) :
    (dst.set used b).take (used + 1) = dst.take used ++ [b] := by
  rw [List.set_eq_take_append_cons_drop, if_pos hused, List.append_cons]
  refine List.take_left' ?_
  rw [List.length_append, List.length_take, List.length_singleton]
  omega

theorem filled_endArgv {dst text : List UInt8} {used : ℕ} (hused : used < dst.length)
    (htext : dst.take used = text) : Filled dst (endArgv used dst) text := by
  have hlen : text.length = used := by
    rw [← htext, List.length_take]
    omega
  refine ⟨List.length_set, by rw [endArgv, hlen], ?_⟩
  rw [endArgv, take_set 0 hused, htext]

/-- The text so far is in the buffer, and the room is not full unless there is none. -/
structure Partial (dst : List UInt8) (used : ℕ) (text : List UInt8) : Prop where
  holds : dst.take used = text
  size : used = text.length
  room : used < dst.length - 1 ∨ text = []
  pos : 0 < dst.length

/-- A text never gets shorter. -/
theorem prefix_foldl_joinArg (args : List (List UInt8)) (text : List UInt8) :
    text <+: args.foldl joinArg text := by
  induction args generalizing text with
  | nil => exact List.prefix_rfl
  | cons arg args ih =>
    have hstep : text <+: joinArg text arg := by
      rw [joinArg]
      split_ifs with harg htext
      · exact List.prefix_rfl
      · rw [htext]
        exact List.nil_prefix
      · exact List.prefix_append _ _
    exact hstep.trans (ih (joinArg text arg))

/-- Once the room is full, what comes after does not matter. -/
theorem argvText_full {room : ℕ} {text full : List UInt8} (args : List (List UInt8) × Bool)
    (hfull : full <+: args.1.foldl joinArg text) (hroom : full.length = room) :
    argvText room text args = full := by
  have hlen := hfull.length_le
  rw [argvText, if_neg (by omega), ← hroom]
  exact (List.prefix_iff_eq_take.mp hfull).symm

theorem Partial.endArgv {dst text : List UInt8} {used : ℕ} (h : Partial dst used text) :
    Filled dst (endArgv used dst) (argvText (dst.length - 1) text ([], false)) := by
  have hpos := h.pos
  have hused : used ≤ dst.length - 1 := by
    rcases h.room with hroom | hnil
    · exact hroom.le
    · rw [h.size, hnil]
      exact Nat.zero_le _
  have htext : argvText (dst.length - 1) text ([], false) = text := by
    rw [argvText, if_neg (by simp)]
    exact List.take_of_length_le (h.size ▸ hused)
  rw [htext]
  exact filled_endArgv (by omega) h.holds

theorem Partial.fault {dst text : List UInt8} {used : ℕ} (h : Partial dst used text) :
    Filled dst (copyEmptyString dst) (argvText (dst.length - 1) text ([], true)) := by
  have htext : argvText (dst.length - 1) text ([], true) = [] := by
    rw [argvText]
    split
    · rfl
    · next hnot =>
      rcases h.room with hroom | hnil
      · have hlt : text.length < dst.length - 1 := h.size ▸ hroom
        exact absurd ⟨rfl, hlt⟩ hnot
      · rw [hnil]
        exact List.take_nil
  rw [htext]
  exact filled_copyEmptyString (List.ne_nil_of_length_pos h.pos)

/-- The text with the space that comes before the next argument. -/
def spaced (text : List UInt8) : List UInt8 := if text = [] then [] else text ++ [0x20]

theorem joinArg_spaced {text arg : List UInt8} (harg : arg ≠ []) : joinArg text arg = spaced text ++ arg := by
  rw [joinArg, if_neg harg, spaced]
  split_ifs
  · rfl
  · simp

theorem Partial.putSpace {dst text : List UInt8} {used : ℕ} (h : Partial dst used text) :
    (putSpace dst.length used dst).2.length = dst.length ∧
      (putSpace dst.length used dst).2.take (putSpace dst.length used dst).1 = spaced text ∧
      (putSpace dst.length used dst).1 = (spaced text).length ∧
      (putSpace dst.length used dst).1 ≤ dst.length - 1 := by
  obtain ⟨hholds, hsize, hroom, hpos⟩ := h
  rw [Sulog.putSpace, spaced]
  by_cases hnil : text = []
  · rw [hnil, List.length_nil] at hsize
    rw [if_neg (by omega), if_pos hnil]
    exact ⟨rfl, by rw [hholds, hnil], hsize, by omega⟩
  · have hlt : used < dst.length - 1 := hroom.resolve_right hnil
    have hne : used ≠ 0 := by
      rw [hsize]
      exact mt List.length_eq_zero_iff.mp hnil
    rw [if_pos ⟨hne, hlt⟩, if_neg hnil]
    refine ⟨List.length_set, ?_, ?_, hlt⟩
    · rw [take_set _ (by omega), hholds]
    · rw [List.length_append, List.length_singleton, hsize]

theorem putArg_holds {dst text : List UInt8} {used : ℕ} (arg : List UInt8) (hholds : dst.take used = text)
    (hsize : used = text.length) (hroom : used ≤ dst.length - 1) (hpos : 0 < dst.length) :
    (putArg dst.length arg used dst).2.length = dst.length ∧
      (putArg dst.length arg used dst).2.take (putArg dst.length arg used dst).1 =
        text ++ arg.take (min arg.length (dst.length - used - 1)) ∧
      (putArg dst.length arg used dst).1 = used + min arg.length (dst.length - used - 1) := by
  have hlen : (arg.take (min arg.length (dst.length - used - 1))).length =
      min arg.length (dst.length - used - 1) := by
    rw [List.length_take]
    omega
  refine ⟨patch_length (by omega), ?_, rfl⟩
  have htake : (patch dst used (arg.take (min arg.length (dst.length - used - 1)))).take
      (used + (arg.take (min arg.length (dst.length - used - 1))).length) =
      dst.take used ++ arg.take (min arg.length (dst.length - used - 1)) := take_patch _ (by omega)
  rw [hlen, hholds] at htake
  exact htake

/-- **The loop fills in the text of the arguments.**  By induction on the turns that are left. -/
theorem flattenLoop_filled (argv : ℕ → UserArg) (fatalSignalPending : ℕ → Bool) (n : ℕ) :
    ∀ (i used : ℕ) (dst text : List UInt8), Partial dst used text →
      Filled dst (flattenLoop countsEmpty argv fatalSignalPending dst.length n i used dst)
        (argvText (dst.length - 1) text (keptArgs countsEmpty argv fatalSignalPending n i)) := by
  induction n with
  | zero =>
    intro i used dst text h
    exact h.endArgv
  | succ n ih =>
    intro i used dst text h
    rw [flattenLoop, keptArgs]
    split
    · exact h.endArgv
    · cases argv i with
      | null => exact h.endArgv
      | fault => exact h.fault
      | ptr s =>
        simp only [fetchArg_eq]
        cases s.kept countsEmpty with
        | none => exact h.fault
        | some arg =>
          simp only
          by_cases harg : arg = []
          · subst harg
            exact ih (i + 1) used dst text h
          · have hpos := h.pos
            have hjoin : joinArg text arg = spaced text ++ arg := joinArg_spaced harg
            have hmore := prefix_foldl_joinArg (keptArgs countsEmpty argv fatalSignalPending n (i + 1)).1
              (joinArg text arg)
            obtain ⟨hlen, hholds, hsize, hroom⟩ := h.putSpace
            rw [if_neg (mt List.length_eq_zero_iff.mp harg)]
            generalize Sulog.putSpace dst.length used dst = p at hlen hholds hsize hroom ⊢
            split
            · -- the space fills the room
              next hfull =>
              have htext : argvText (dst.length - 1) text
                  (arg :: (keptArgs countsEmpty argv fatalSignalPending n (i + 1)).1,
                    (keptArgs countsEmpty argv fatalSignalPending n (i + 1)).2) = spaced text :=
                argvText_full _ ((hjoin ▸ List.prefix_append _ _).trans hmore) (by omega)
              rw [htext]
              exact (filled_endArgv (by omega) hholds).of_length hlen
            · next hspace =>
              rw [← hlen]
              obtain ⟨hlen', hholds', hsize'⟩ := putArg_holds arg hholds hsize (by omega) (by omega)
              generalize putArg p.2.length arg p.1 p.2 = r at hlen' hholds' hsize' ⊢
              have htaken : (arg.take (min arg.length (p.2.length - p.1 - 1))).length =
                  min arg.length (p.2.length - p.1 - 1) := by
                rw [List.length_take]
                omega
              split
              · -- the argument, or what fits of it, fills the room
                next hfull =>
                have htext : argvText (p.2.length - 1) text
                    (arg :: (keptArgs countsEmpty argv fatalSignalPending n (i + 1)).1,
                      (keptArgs countsEmpty argv fatalSignalPending n (i + 1)).2) =
                    spaced text ++ arg.take (min arg.length (p.2.length - p.1 - 1)) := by
                  refine argvText_full _ (List.IsPrefix.trans ?_ hmore) ?_
                  · rw [hjoin]
                    exact (List.prefix_append_right_inj _).mpr (List.take_prefix _ _)
                  · rw [List.length_append, htaken]
                    omega
                rw [htext]
                exact ((filled_endArgv (by omega) hholds').of_length hlen').of_length hlen
              · next hnext =>
                have hwhole : arg.take (min arg.length (p.2.length - p.1 - 1)) = arg :=
                  List.take_of_length_le (by omega)
                rw [hwhole, ← hjoin] at hholds'
                have hnew : Partial r.2 r.1 (joinArg text arg) := by
                  refine ⟨hholds', ?_, .inl (by omega), by omega⟩
                  rw [hjoin, List.length_append]
                  omega
                have hfilled := ih (i + 1) r.1 r.2 (joinArg text arg) hnew
                rw [hlen'] at hfilled
                exact (hfilled.of_length hlen').of_length hlen

/-- **The arguments are copied.** -/
theorem flattenArgv_holds (argvUser : Option (ℕ → UserArg)) (fatalSignalPending : ℕ → Bool)
    {dst : List UInt8} (hpos : 0 < dst.length) :
    Filled dst (flattenArgv countsEmpty argvUser fatalSignalPending dst dst.length)
      (capturedArgv countsEmpty argvUser fatalSignalPending (dst.length - 1)) := by
  have hlen : dst.length ≠ 0 := by omega
  cases argvUser with
  | none =>
    simp only [flattenArgv, if_neg hlen]
    exact filled_copyEmptyString (List.ne_nil_of_length_pos hpos)
  | some argv =>
    simp only [flattenArgv, if_neg hlen]
    exact flattenLoop_filled argv fatalSignalPending KSU_SULOG_MAX_ARG_STRINGS 0 0 dst []
      ⟨List.take_zero, rfl, .inr rfl, hpos⟩

theorem notMem_kept {s : UserStr} {bytes : List UInt8} (h : s.kept countsEmpty = some bytes) : 0 ∉ bytes := by
  cases s with
  | fault copied => cases h
  | str b hb =>
    rw [UserStr.kept] at h
    split at h
    · cases h
    · obtain rfl := Option.some.inj h
      exact notMem_take hb 255

theorem notMem_joinArg {text arg : List UInt8} (htext : 0 ∉ text) (harg : 0 ∉ arg) :
    0 ∉ joinArg text arg := by
  rw [joinArg]
  split_ifs
  · exact htext
  · exact harg
  · simp only [List.mem_append, List.mem_cons, not_or]
    exact ⟨htext, by decide, harg⟩

/-- There is no NUL among the arguments. -/
theorem notMem_keptArgs (argv : ℕ → UserArg) (fatalSignalPending : ℕ → Bool) (n : ℕ) :
    ∀ i, ∀ arg ∈ (keptArgs countsEmpty argv fatalSignalPending n i).1, 0 ∉ arg := by
  induction n with
  | zero => exact fun i arg harg => absurd harg List.not_mem_nil
  | succ n ih =>
    intro i arg harg
    rw [keptArgs] at harg
    split at harg
    · exact absurd harg List.not_mem_nil
    · split at harg
      · exact absurd harg List.not_mem_nil
      · exact absurd harg List.not_mem_nil
      · split at harg
        · exact absurd harg List.not_mem_nil
        · next hkept =>
          rcases List.mem_cons.mp harg with rfl | harg
          · exact notMem_kept hkept
          · exact ih (i + 1) arg harg

theorem notMem_foldl_joinArg {args : List (List UInt8)} (hargs : ∀ arg ∈ args, 0 ∉ arg) :
    ∀ text : List UInt8, 0 ∉ text → 0 ∉ args.foldl joinArg text := by
  induction args with
  | nil => exact fun text htext => htext
  | cons arg args ih =>
    intro text htext
    have hhead := hargs arg List.mem_cons_self
    exact ih (fun a ha => hargs a (List.mem_cons_of_mem _ ha)) _ (notMem_joinArg htext hhead)

theorem notMem_capturedArgv (argvUser : Option (ℕ → UserArg)) (fatalSignalPending : ℕ → Bool) (room : ℕ) :
    0 ∉ capturedArgv countsEmpty argvUser fatalSignalPending room := by
  cases argvUser with
  | none => exact List.not_mem_nil
  | some argv =>
    rw [capturedArgv, argvText]
    split
    · exact List.not_mem_nil
    · exact notMem_take (notMem_foldl_joinArg (notMem_keptArgs argv fatalSignalPending _ 0) []
        List.not_mem_nil) room

theorem notMem_capturedFilename (filenameUser : Option UserStr) : 0 ∉ capturedFilename countsEmpty filenameUser := by
  rcases filenameUser with _ | s
  · exact List.not_mem_nil
  · rw [capturedFilename, Option.bind_some]
    cases hkept : s.kept countsEmpty with
    | none => exact List.not_mem_nil
    | some bytes => exact notMem_kept hkept

/-! ### The payload read back -/

open Ksud

theorem slice_skip {a r : List UInt8} {o n : ℕ} (h : a.length ≤ o) :
    slice (a ++ r) o n = slice r (o - a.length) n := by
  obtain ⟨k, rfl⟩ := Nat.exists_eq_add_of_le h
  rw [slice_append_right, Nat.add_sub_cancel_left]

theorem word_skip {a r : List UInt8} {o n : ℕ} (h : a.length ≤ o) :
    word (a ++ r) o n = word r (o - a.length) n := by
  rw [word, slice_skip h, word]

theorem word_head (n v : ℕ) (r : List UInt8) : word (encodeLE n v ++ r) 0 n = v % 256 ^ n := by
  have hslice : slice (encodeLE n v ++ r) 0 n = encodeLE n v := by
    rw [slice_append_left _ _ (by simp)]
    have hfull := slice_full (encodeLE n v)
    rwa [encodeLE_length] at hfull
  rw [word, hslice, decodeLE_encodeLE]

theorem ofNat_word16 (v : UInt16) : UInt16.ofNat (v.toNat % 256 ^ 2) = v := by
  rw [Nat.mod_eq_of_lt (show v.toNat < 256 ^ 2 from v.toNat_lt), UInt16.ofNat_toNat]

theorem ofNat_word32 (v : UInt32) : UInt32.ofNat (v.toNat % 256 ^ 4) = v := by
  rw [Nat.mod_eq_of_lt (show v.toNat < 256 ^ 4 from v.toNat_lt), UInt32.ofNat_toNat]

theorem Event.comm_length (e : Event) : e.comm.toList.length = 16 := e.comm.toList_length

theorem Event.bytes_length (e : Event) : e.bytes.length = 52 := by
  simp only [Event.bytes, List.length_append, encodeLE_length, e.comm_length]

/-- **The struct is read back**, whatever follows it. -/
theorem parse_header (e : Event) (rest : List UInt8) :
    SulogEventHeader.parse (e.bytes ++ rest) = .ok {
      version := e.version
      eventType := e.eventType
      retval := e.retval
      pid := e.pid
      tgid := e.tgid
      ppid := e.ppid
      uid := e.uid
      euid := e.euid
      comm := e.comm.toList
      filenameLen := e.filenameLen
      argvLen := e.argvLen } := by
  have hlen := e.bytes_length
  have hcomm := e.comm_length
  have hfull : ∀ r, slice (e.comm.toList ++ r) 0 16 = e.comm.toList := fun r =>
    slice_append_exact [] e.comm.toList r rfl hcomm
  have hskip : ∀ (r : List UInt8) (o : ℕ), 16 ≤ o →
      word (e.comm.toList ++ r) o 4 = word r (o - 16) 4 := fun r o ho => by
    rw [word_skip (by omega), hcomm]
  have hretval : e.retval.toUInt32.toInt32 = e.retval := rfl
  rw [SulogEventHeader.parse, if_neg (by rw [List.length_append, hlen, sizeofSulogEventHeader]; omega)]
  simp (disch := simp) only [Event.bytes, List.append_assoc, word_skip, slice_skip, encodeLE_length, hskip,
    hfull, Nat.reduceSub, word_head, ofNat_word16, ofNat_word32, hretval]

/-- What `ksud` makes of a captured event. -/
def Event.read (e : Event) (filename argv : List UInt8) : SulogEvent where
  version := e.version
  eventType := e.eventType
  retval := e.retval
  pid := e.pid
  tgid := e.tgid
  ppid := e.ppid
  uid := e.uid
  euid := e.euid
  comm := fromUtf8Lossy (cString e.comm.toList)
  file := fromUtf8Lossy filename
  argv := fromUtf8Lossy argv

/-- Strings that are UTF-8 come back as they were. -/
theorem Event.read_asBytes (e : Event) (filename argv : Str) :
    (e.read (asBytes filename) (asBytes argv)).file = filename ∧
      (e.read (asBytes filename) (asBytes argv)).argv = argv :=
  ⟨fromUtf8Lossy_encode filename, fromUtf8Lossy_encode argv⟩

/-- **A payload of the right shape is accepted**: the struct, a file name with its NUL within its length, and
the arguments with theirs. -/
theorem parse_payload {e : Event} {filename argv junk : List UInt8} (hfilename : 0 ∉ filename)
    (hargv : 0 ∉ argv) (hfilenameLen : e.filenameLen.toNat = (filename ++ 0 :: junk).length)
    (hargvLen : e.argvLen.toNat = argv.length + 1) :
    SulogEvent.parse (e.bytes ++ ((filename ++ 0 :: junk) ++ (argv ++ [0]))) = .ok (e.read filename argv) := by
  have hlen := e.bytes_length
  have hf := e.filenameLen.toNat_lt
  have ha := e.argvLen.toNat_lt
  have hfile : slice (e.bytes ++ ((filename ++ 0 :: junk) ++ (argv ++ [0]))) 52 e.filenameLen.toNat =
      filename ++ 0 :: junk := slice_append_exact _ _ _ hlen hfilenameLen.symm
  have hargs : slice (e.bytes ++ ((filename ++ 0 :: junk) ++ (argv ++ [0]))) (52 + e.filenameLen.toNat)
      e.argvLen.toNat = argv ++ [0] := by
    have hexact := slice_append_exact (e.bytes ++ (filename ++ 0 :: junk)) (argv ++ [0]) []
      (show _ = 52 + e.filenameLen.toNat by rw [List.length_append, hlen, hfilenameLen])
      (show _ = e.argvLen.toNat by rw [hargvLen, List.length_append, List.length_singleton])
    rwa [List.append_nil, List.append_assoc] at hexact
  have htotal : (e.bytes ++ ((filename ++ 0 :: junk) ++ (argv ++ [0]))).length =
      52 + (e.filenameLen.toNat + e.argvLen.toNat) := by
    simp only [List.length_append, List.length_singleton] at hfilenameLen ⊢
    omega
  simp only [SulogEvent.parse, parse_header, sizeofSulogEventHeader, htotal, hfile, hargs, parseCString,
    cString_nul hfilename, cString_nul hargv]
  rw [if_neg (by omega), if_neg (by omega), if_neg (by simp)]
  rfl

/-! ### The capture -/

/-- What a capture leaves. -/
structure Captured (current : Task) (eventType : UInt16) (filename argv : List UInt8) (p : PendingEvent) :
    Prop where
  type : p.eventType = eventType
  event : p.event = { fillTaskInfo current eventType 0 with
    filenameLen := p.event.filenameLen
    argvLen := p.event.argvLen }
  strings : ∃ junk rest, p.strings = (filename ++ 0 :: junk) ++ (argv ++ [0]) ++ rest ∧
    p.event.filenameLen.toNat = (filename ++ 0 :: junk).length ∧
    p.event.argvLen.toNat = argv.length + 1 ∧
    p.payloadLen = 52 + ((filename ++ 0 :: junk).length + (argv.length + 1))
  fits : p.payloadLen ≤ KSU_SULOG_MAX_PAYLOAD_LEN

/-- What a capture copies: the file name, and the arguments behind it. -/
theorem capture_strings {filenameUser : Option UserStr} {argvUser : Option (ℕ → UserArg)} {fatalSignalPending : ℕ → Bool}
    {f r : ℕ × List UInt8} (hf : copyFilename countsEmpty filenameUser (List.replicate 1996 0) 256 = f)
    (hr : flattenArgv countsEmpty argvUser fatalSignalPending (f.2.drop f.1) (1996 - f.1) = r) :
    Copied (List.replicate 1996 0) 256 f (capturedFilename countsEmpty filenameUser) ∧
      Filled (f.2.drop f.1) r (capturedArgv countsEmpty argvUser fatalSignalPending (1996 - f.1 - 1)) ∧
      f.2.length = 1996 ∧ r.1 ≤ 1996 - f.1 := by
  have hzero : (List.replicate 1996 (0 : UInt8)).length = 1996 := List.length_replicate
  have hfile : Copied (List.replicate 1996 0) 256 f (capturedFilename countsEmpty filenameUser) :=
    hf ▸ copyFilename_holds filenameUser (by omega)
  have hlen := hfile.length.trans hzero
  have hhigh := hfile.range.2
  have hroom : (f.2.drop f.1).length = 1996 - f.1 := by rw [List.length_drop, hlen]
  have hargs : Filled (f.2.drop f.1)
      (flattenArgv countsEmpty argvUser fatalSignalPending (f.2.drop f.1) (f.2.drop f.1).length)
      (capturedArgv countsEmpty argvUser fatalSignalPending ((f.2.drop f.1).length - 1)) :=
    flattenArgv_holds argvUser fatalSignalPending (by omega)
  rw [hroom, hr] at hargs
  refine ⟨hfile, hargs, hlen, ?_⟩
  have htake := congrArg List.length hargs.text
  have hrlen := hargs.length
  have hrsize := hargs.size
  rw [List.length_take, List.length_append, List.length_singleton] at htake
  omega

/-- **A capture is built** where the log is on and both blocks are given. -/
theorem exists_capture (current : Task) (eventType : UInt16) (filenameUser : Option UserStr)
    (argvUser : Option (ℕ → UserArg)) (fatalSignalPending : ℕ → Bool) :
    ∃ p, capture countsEmpty true true true current eventType filenameUser argvUser fatalSignalPending = .captured p := by
  obtain ⟨f, hf⟩ : ∃ f, copyFilename countsEmpty filenameUser (List.replicate 1996 0) 256 = f := ⟨_, rfl⟩
  obtain ⟨r, hr⟩ : ∃ r, flattenArgv countsEmpty argvUser fatalSignalPending (f.2.drop f.1) (1996 - f.1) = r := ⟨_, rfl⟩
  obtain ⟨hfile, hargs, -, hfits⟩ := capture_strings hf hr
  have hmin : min 1996 256 = 256 := rfl
  have hlow := hfile.range
  have hsize := hargs.size
  simp only [capture, Bool.not_true, Bool.false_eq_true, if_false, KSU_SULOG_MAX_PAYLOAD_LEN, sizeofEvent,
    KSU_SULOG_MAX_FILENAME_LEN, Nat.reduceSub, hmin, hf, hr]
  rw [if_neg (by omega), if_neg (by omega), if_neg (by omega)]
  exact ⟨_, rfl⟩

theorem captured_capture {isEnabled pendingAlloc payloadAlloc : Bool} {current : Task} {eventType : UInt16}
    {filenameUser : Option UserStr} {argvUser : Option (ℕ → UserArg)} {fatalSignalPending : ℕ → Bool}
    {p : PendingEvent} (h : capture countsEmpty isEnabled pendingAlloc payloadAlloc current eventType filenameUser argvUser
      fatalSignalPending = .captured p) :
    Captured current eventType (capturedFilename countsEmpty filenameUser)
      (capturedArgv countsEmpty argvUser fatalSignalPending (1996 - filenameSize countsEmpty filenameUser - 1)) p := by
  have hmin : min 1996 256 = 256 := rfl
  rw [capture] at h
  split_ifs at h
  simp only [KSU_SULOG_MAX_PAYLOAD_LEN, sizeofEvent, KSU_SULOG_MAX_FILENAME_LEN, Nat.reduceSub, hmin] at h
  split_ifs at h
  obtain rfl := Capture.captured.inj h
  clear h
  rw [← copyFilename_size filenameUser (List.replicate 1996 0)]
  generalize hf : copyFilename countsEmpty filenameUser (List.replicate 1996 0) 256 = f at *
  generalize hr : flattenArgv countsEmpty argvUser fatalSignalPending (f.2.drop f.1) (1996 - f.1) = r at *
  obtain ⟨⟨-, ⟨hlow, hhigh⟩, junk, htext⟩, ⟨-, hrsize, hrtext⟩, hlen, hrfits⟩ := capture_strings hf hr
  generalize capturedArgv countsEmpty argvUser fatalSignalPending (1996 - f.1 - 1) = argv at hrsize hrtext ⊢
  have hfsize : (capturedFilename countsEmpty filenameUser ++ 0 :: junk).length = f.1 := by
    rw [← htext, List.length_take]
    omega
  have hofNat : ∀ n : ℕ, n ≤ 1996 → (UInt32.ofNat n).toNat = n := fun n hn => by
    rw [UInt32.toNat_ofNat', Nat.mod_eq_of_lt (by omega)]
  refine ⟨rfl, rfl, ⟨junk, r.2.drop r.1, ?_, ?_, ?_, ?_⟩, ?_⟩
  · rw [← htext, ← hrtext, List.append_assoc, List.take_append_drop]
  · rw [hfsize]
    exact hofNat f.1 (by omega)
  · rw [← hrsize]
    exact hofNat r.1 (by omega)
  · rw [hfsize, ← hrsize, Nat.add_assoc]
  · show 52 + f.1 + r.1 ≤ 2048
    omega

/-- **What is pushed is read back.**  `SulogEvent::parse` accepts the payload of a captured event, its identity
set or not, and gives back its fields, its file name and its arguments. -/
theorem parse_emit {isEnabled pendingAlloc payloadAlloc : Bool} {current : Task} {eventType : UInt16}
    {filenameUser : Option UserStr} {argvUser : Option (ℕ → UserArg)} {fatalSignalPending : ℕ → Bool}
    {p : PendingEvent} (h : capture countsEmpty isEnabled pendingAlloc payloadAlloc current eventType filenameUser argvUser
      fatalSignalPending = .captured p) (identity : Option Identity) (retval : Int32) :
    SulogEvent.parse ({ p with event := setIdentity p.event identity }.emit retval) =
      .ok ((setIdentity (fillTaskInfo current eventType retval) identity).read (capturedFilename countsEmpty filenameUser)
        (capturedArgv countsEmpty argvUser fatalSignalPending (1996 - filenameSize countsEmpty filenameUser - 1))) ∧
    ({ p with event := setIdentity p.event identity }.emit retval).length ≤ KSU_SULOG_MAX_PAYLOAD_LEN := by
  obtain ⟨-, hevent, ⟨junk, rest, hstrings, hf, ha, hlen⟩, hfits⟩ := captured_capture h
  have hnofile : 0 ∉ capturedFilename countsEmpty filenameUser := notMem_capturedFilename filenameUser
  have hnoargv : 0 ∉ capturedArgv countsEmpty argvUser fatalSignalPending
      (1996 - filenameSize countsEmpty filenameUser - 1) := notMem_capturedArgv argvUser fatalSignalPending _
  generalize capturedFilename countsEmpty filenameUser = filename at *
  generalize capturedArgv countsEmpty argvUser fatalSignalPending (1996 - filenameSize countsEmpty filenameUser - 1) = argv at *
  set e : Event := { setIdentity p.event identity with retval := retval } with he
  have hbytes := e.bytes_length
  have hemit : { p with event := setIdentity p.event identity }.emit retval =
      e.bytes ++ ((filename ++ 0 :: junk) ++ (argv ++ [0])) := by
    have hwhole : e.bytes ++ p.strings = (e.bytes ++ ((filename ++ 0 :: junk) ++ (argv ++ [0]))) ++ rest := by
      simp only [hstrings, List.append_assoc]
    rw [PendingEvent.emit, ← he]
    show (e.bytes ++ p.strings).take p.payloadLen = _
    rw [hwhole]
    refine List.take_left' ?_
    simp only [List.length_append, List.length_singleton] at hlen ⊢
    omega
  have hread : e.read filename argv =
      (setIdentity (fillTaskInfo current eventType retval) identity).read filename argv := by
    rw [he, hevent]
    cases identity <;> rfl
  have hef : e.filenameLen = p.event.filenameLen := by
    rw [he]
    cases identity <;> rfl
  have hea : e.argvLen = p.event.argvLen := by
    rw [he]
    cases identity <;> rfl
  refine ⟨?_, ?_⟩
  · rw [hemit, parse_payload hnofile hnoargv (hef ▸ hf) (hea ▸ ha), hread]
  · rw [hemit]
    simp only [List.length_append, List.length_singleton] at hlen ⊢
    omega

end KernelSU.Sulog
