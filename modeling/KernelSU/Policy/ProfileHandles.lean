import KernelSU.Lib.RefCount
import KernelSU.Policy.RootGrant

/-!
# `kernel/policy/allowlist.c`: profiles handed out under reference counts

Readers look a profile up and take a reference without the mutex; writers link, replace and unlink entries
under it and then drop the table's reference.  Each step below is one atomic step of one call, and `step`
interleaves them.

An entry is its index in the heap of every `perm_data` that was ever allocated: the readers' RCU sections
keep the memory of a released one from being used again while a reader may look at it.  The table is the
list of its linked entries.  A count is a natural number: it counts tasks' handles, and stays far below the
bound at which `refcount_t` saturates.
-/

namespace KernelSU.Policy

open KernelSU.Lib KernelSU.Lib.Bytes AppProfile AllowlistState

/-- `struct perm_data`, less its links. -/
structure PermData where
  ref : RefCount
  profile : AppProfile

/-- Which of the two look-ups a call is. -/
inductive Lookup
  | app
  | root
  deriving DecidableEq, Repr

/-- The test of the walk: `ksu_get_root_profile` also asks for su. -/
def Lookup.matches (lookup : Lookup) (uid : UInt32) (profile : AppProfile) : Bool :=
  match lookup with
  | .app => profile.currUid = uid
  | .root => profile.currUid = uid && profile.allowSu

/-- Where a call of `ksu_get_app_profile` or `ksu_get_root_profile`, and then its handle, stands. -/
inductive Call
  /-- At the label `retry`. -/
  | find (lookup : Lookup) (uid : UInt32)
  /-- Before `kref_get_unless_zero`. -/
  | take (lookup : Lookup) (uid : UInt32) (id : ℕ)
  /-- The call has returned a profile inside this entry. -/
  | held (lookup : Lookup) (uid : UInt32) (id : ℕ)
  /-- The call has returned `&default_root_profile`. -/
  | heldDefault
  /-- The call has returned `NULL`, or its handle was put. -/
  | done
  deriving DecidableEq, Repr

/-- Where the owner of `allowlist_mutex` stands. -/
inductive Writer
  /-- `ksu_set_app_profile`, before it looks for the entry. -/
  | setLink (profile : AppProfile)
  /-- `ksu_set_app_profile`, before `put_perm_data` of the entry it replaced. -/
  | setPut (old : ℕ)
  /-- `ksu_prune_allowlist`, before the next of the entries left to visit. -/
  | pruneWalk (rest : List ℕ) (isUidValid : UInt32 → List UInt8 → Bool)
  /-- `ksu_prune_allowlist`, before `put_perm_data` of the entry it unlinked. -/
  | prunePut (old : ℕ) (rest : List ℕ) (isUidValid : UInt32 → List UInt8 → Bool)
  | unlock

/-- The table, the entries, the readers' calls and the owner of the mutex. -/
structure HandleState where
  heap : List PermData
  linked : List ℕ
  allowListCount : UInt16
  calls : List Call
  writer : Option Writer

namespace HandleState

/-- No entry, no call. -/
def init : HandleState := ⟨[], [], 0, [], none⟩

/-- The first linked entry whose profile passes the test. -/
def findEntry (s : HandleState) (test : AppProfile → Bool) : Option ℕ :=
  s.linked.find? fun id => (s.heap[id]?).any fun p => test p.profile

def setCall (s : HandleState) (i : ℕ) (call : Call) : HandleState := { s with calls := s.calls.set i call }

def setWriter (s : HandleState) (writer : Writer) : HandleState := { s with writer := some writer }

/-- A store to the count of an entry. -/
def setRef (s : HandleState) (id : ℕ) (ref : RefCount) : HandleState :=
  { s with heap := s.heap.modify id fun p => { p with ref := ref } }

/-- `put_perm_data`. -/
def putPermData (s : HandleState) (id : ℕ) : HandleState :=
  { s with heap := s.heap.modify id fun p => { p with ref := p.ref.put } }

/-! ### Readers -/

/-- The next step of call `i`, or the put of its handle. -/
def callStep (s : HandleState) (i : ℕ) : Call → Option HandleState
  | .find .app uid =>
    match s.findEntry (Lookup.app.matches uid) with
    | none => some (s.setCall i .done)
    | some id => some (s.setCall i (.take .app uid id))
  | .find .root uid =>
    match s.findEntry (Lookup.root.matches uid) with
    | none => some (s.setCall i .heldDefault)
    | some id =>
      match s.heap[id]? with
      | none => none
      | some p =>
        if p.profile.rpUseDefault then some (s.setCall i .heldDefault)
        else some (s.setCall i (.take .root uid id))
  | .take lookup uid id =>
    match s.heap[id]? with
    | none => none
    | some p =>
      match p.ref.getUnlessZero with
      | none => some (s.setCall i (.find lookup uid))
      | some ref => some ((s.setRef id ref).setCall i (.held lookup uid id))
  | .held _ _ id => some ((s.putPermData id).setCall i .done)
  | .heldDefault => some (s.setCall i .done)
  | .done => none

/-! ### Writers -/

/-- The section of `ksu_set_app_profile` under the mutex up to the new entry's link. -/
def setLink (s : HandleState) (profile : AppProfile) (allocSucceeds : Bool) : HandleState :=
  let np : PermData := ⟨RefCount.init, profile⟩
  match s.findEntry (Lookup.app.matches profile.currUid) with
  | some p =>
    if allocSucceeds then
      { s with
        heap := s.heap ++ [np]
        linked := s.linked.map fun id => if id = p then s.heap.length else id }.setWriter (.setPut p)
    else s.setWriter .unlock
  | none =>
    if s.allowListCount = 65535 then s.setWriter .unlock
    else if allocSucceeds then
      { s with
        heap := s.heap ++ [np]
        linked := s.heap.length :: s.linked
        allowListCount := s.allowListCount + 1 }.setWriter .unlock
    else s.setWriter .unlock

/-- The next step of the owner of the mutex. -/
def writerStep (s : HandleState) (allocSucceeds : Bool) : Writer → Option HandleState
  | .setLink profile => some (s.setLink profile allocSucceeds)
  | .setPut old => some ((s.putPermData old).setWriter .unlock)
  | .pruneWalk [] _ => some (s.setWriter .unlock)
  | .pruneWalk (np :: rest) isUidValid =>
    match s.heap[np]? with
    | none => none
    | some p =>
      if kept isUidValid p.profile then some (s.setWriter (.pruneWalk rest isUidValid))
      else
        some ({ s with
          linked := s.linked.erase np
          allowListCount := s.allowListCount - 1 }.setWriter (.prunePut np rest isUidValid))
  | .prunePut old rest isUidValid =>
    some ((s.putPermData old).setWriter (.pruneWalk rest isUidValid))
  | .unlock => some { s with writer := none }

end HandleState

/-! ### Interleavings -/

/-- A call begins, a reader's call or the put of its handle goes on, or the owner of the mutex does. -/
inductive HandleAction
  | getAppProfile (uid : UInt32)
  | getRootProfile (managerAppid : UInt32) (allowShell : Bool) (uid : UInt32)
  | call (i : ℕ)
  | setAppProfile (profile : AppProfile)
  | pruneAllowlist (isUidValid : UInt32 → List UInt8 → Bool)
  | writer (allocSucceeds : Bool)

/-- One step; `none` where the action has to wait, or there is nothing to go on with. -/
def handleStep (s : HandleState) : HandleAction → Option HandleState
  | .getAppProfile uid => some { s with calls := s.calls ++ [.find .app uid] }
  | .getRootProfile managerAppid allowShell uid =>
    if isUidManager managerAppid uid ∨ (allowShell ∧ uid = SHELL_UID) then
      some { s with calls := s.calls ++ [.heldDefault] }
    else some { s with calls := s.calls ++ [.find .root uid] }
  | .call i => (s.calls[i]?).bind (s.callStep i)
  | .setAppProfile profile =>
    if profile.valid = false ∨
        (profile.currUid = KSU_APP_PROFILE_PRESERVE_UID ∧ cString profile.key ≠ "$".toUTF8.data.toList) then
      some s
    else if s.writer.isSome then none
    else some (s.setWriter (.setLink profile))
  | .pruneAllowlist isUidValid =>
    if s.writer.isSome then none else some (s.setWriter (.pruneWalk s.linked isUidValid))
  | .writer allocSucceeds => s.writer.bind (s.writerStep allocSucceeds)

/-- Every interleaving; a step is labelled with the state it was taken in. -/
def profileHandles : Machine HandleState HandleAction HandleState where
  init := .init
  step := fun s a => (handleStep s a).map fun s' => (s', s)

end KernelSU.Policy
