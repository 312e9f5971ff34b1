import KernelSU.Policy.RootGrant

/-!
# `kernel/manager/throne_tracker.c`: the package list and pruning

`track_throne` reads `packages.list` byte by byte, parses what it finds at the start of each line that
ends, and prunes the allowlist by the packages it has read so far when it stops.  A `char *` into a buffer
is the bytes before the NUL; `none` is the null pointer.

The walk over `/data/app` is an argument: it may crown a manager and does nothing to the allowlist.
-/

namespace KernelSU.Manager

open KernelSU.Lib KernelSU.Lib.Bytes KernelSU.Policy AppProfile AllowlistState

/-- `struct uid_data`. -/
structure UidData where
  uid : UInt32
  package : List UInt8
  deriving DecidableEq, Repr

def NEWLINE : UInt8 := 10

def SPACE : UInt8 := 32

/-! ### The kernel's string functions -/

/-- `strsep` with one delimiter: the token and the new value of the pointer. -/
def strsep (s : Option (List UInt8)) (delim : UInt8) : Option (List UInt8) × Option (List UInt8) :=
  match s with
  | none => (none, none)
  | some s =>
    if delim ∈ s then (some (s.takeWhile (· != delim)), some (s.dropWhile (· != delim)).tail)
    else (some s, none)

/-- `isdigit`. -/
def isDigit (c : UInt8) : Bool := 48 ≤ c && c ≤ 57

/-- The number that decimal digits stand for. -/
def decimal (digits : List UInt8) : ℕ := digits.foldl (fun n c => 10 * n + (c.toNat - 48)) 0

/-- `kstrtou32` to base 10: digits after an optional plus sign, a newline at most behind them. -/
def kstrtou32 (s : List UInt8) : Option UInt32 :=
  let s := if s.head? = some 43 then s.tail else s
  let digits := s.takeWhile isDigit
  let rest := s.dropWhile isDigit
  if digits = [] then none
  else if 2 ^ 32 ≤ decimal digits then none
  else if rest = [] ∨ rest = [NEWLINE] then some (UInt32.ofNat (decimal digits))
  else none

/-- `strncmp(a, b, n) == 0`. -/
def strncmpEq (a b : List UInt8) (n : ℕ) : Bool := (cString a).take n = (cString b).take n

/-! ### `track_throne` -/

/-- The two tokens of a line and their checks; `none` where the loop ends. -/
def parseLine (buf : List UInt8) : Option UidData :=
  let (package, tmp) := strsep (some buf) SPACE
  let (uid, _) := strsep tmp SPACE
  match uid, package with
  | some uid, some package => (kstrtou32 uid).map fun res => ⟨res, package.take 255⟩
  | _, _ => none

/-- The string in `buf` after the read from `lineStart`. -/
def lineBuf (file : List UInt8) (lineStart : ℕ) : List UInt8 :=
  cString (kernelRead file (KSU_MAX_PACKAGE_NAME - 1) lineStart)

/-- The loop over the bytes of the file; `none` where `kzalloc` fails, which leads to the label `out`. -/
def readLines (file : List UInt8) (kzallocSucceeds : ℕ → Bool) (pos lineStart : ℕ)
    (uidList : List UidData) : Option (List UidData) :=
  match _hread : file[pos]? with
  | none => some uidList
  | some chr =>
    if chr ≠ NEWLINE then readLines file kzallocSucceeds (pos + 1) lineStart uidList
    else if kernelRead file (KSU_MAX_PACKAGE_NAME - 1) lineStart = [] then some uidList
    else if kzallocSucceeds uidList.length = false then none
    else match parseLine (lineBuf file lineStart) with
      | none => some uidList
      | some data => readLines file kzallocSucceeds (pos + 1) (pos + 1) (uidList ++ [data])
termination_by file.length - pos
decreasing_by
  all_goals
    have hpos : pos < file.length := (List.getElem?_eq_some_iff.mp _hread).1
    omega

/-- `is_uid_exist`. -/
def isUidExist (uidList : List UidData) (uid : UInt32) (package : List UInt8) : Bool :=
  uidList.any fun np =>
    np.uid = uid % KSU_PER_USER_RANGE && strncmpEq np.package package KSU_MAX_PACKAGE_NAME

/-- What `track_throne` changes. -/
structure ThroneState where
  allowlist : AllowlistState
  managerAppid : UInt32

/-- What `track_throne` finds around it. -/
structure ThroneEnv where
  bootCompleted : Bool
  kzallocSucceeds : ℕ → Bool
  /-- The manager's appid after `search_manager`, from the packages and the appid before it. -/
  searchManager : List UidData → UInt32 → UInt32

/-- The part of `track_throne` before the label `prune`. -/
def updateManager (env : ThroneEnv) (uidList : List UidData) (managerAppid : UInt32) : UInt32 :=
  if uidList.any (·.uid = managerAppid) then managerAppid
  else if isManagerAppidValid managerAppid then KSU_INVALID_APPID
  else env.searchManager uidList managerAppid

/-- `track_throne`; `file` is `packages.list`, if it opens. -/
def trackThrone (env : ThroneEnv) (pruneOnly : Bool) (file : Option (List UInt8)) (s : ThroneState) :
    ThroneState :=
  match file with
  | none => s
  | some file =>
    match readLines file env.kzallocSucceeds 0 0 [] with
    | none => s
    | some uidList =>
      { allowlist := s.allowlist.pruneAllowlist env.bootCompleted (isUidExist uidList)
        managerAppid :=
          if pruneOnly then s.managerAppid else updateManager env uidList s.managerAppid }

end KernelSU.Manager
