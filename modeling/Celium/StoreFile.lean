import Celium.StoreAtomic
/-!
# StoreFile — the two stores behind `TenantStore`, and the write protocol of the durable one

`MemTenantStore` runs a call on the state.  `FileTenantStore` runs it on the state in memory and, when it succeeded,
writes the whole state to `<path>.tmp` and renames that over `<path>`; each of the five file-system steps may fail at any
call.  `serde_json` and the file system are other people's code: a `Codec` stands for the first, with the round trip the
store relies on, and `Faults` says which step of one call fails.  Two facts come out.  Without faults the durable store
answers and ends as the one in memory.  With faults, the file is the state in memory after every call iff no call that
changes the state fails to reach the rename: the state in memory is changed first and never taken back.

What a `HashMap` holds has no order, so that two states are the same store (`Same`) where their maps answer alike; a file
opens to one of them, and which one is up to `serde_json`.
-/
namespace Celium

open Fixed Forest Runs

/-! ## Calls of the trait -/

/-- A method of `TenantStore`: one that may change the store, or one that only reads it. -/
inductive Call where
  | op (op : Op)
  | authenticate (tenantName userName password : String)
  | validateToken (token : SessionToken) (nowMs : UInt64)
  | get (id : TenantId)
  | getByName (name : String)
  | list
  | children (parent : TenantId)
  | ancestors (id : TenantId)

inductive Answer where
  | reply (r : Reply)
  | principal (tenant : TenantId) (user : UserId) (caps : TenantCaps)
  | session (ss : Session)
  | tenant (t : Tenant)
  | tenants (ts : List Tenant)
deriving DecidableEq

/-- What the call does to a `StoreState`; a read changes nothing. -/
def Call.apply (cr : Crypto) (s : StoreState) : Call → CelResult Answer × StoreState
  | .op o => ((step cr s o).1.map .reply, (step cr s o).2)
  | .authenticate tenantName userName password =>
    ((s.authenticate cr tenantName userName password).map (fun p => .principal p.1 p.2.1 p.2.2), s)
  | .validateToken token nowMs => ((s.validateToken cr token nowMs).map .session, s)
  | .get id => ((s.get id).map .tenant, s)
  | .getByName name => ((s.getByName name).map .tenant, s)
  | .list => (.ok (.tenants s.list), s)
  | .children parent => (.ok (.tenants (s.children parent)), s)
  | .ancestors id => ((s.ancestors id).map .tenants, s)

/-- The reads that `FileTenantStore` answers without its `with_state`; `authenticate` and `validate_token` go through
it, and so write the file. -/
def Call.readOnly : Call → Bool
  | .get _ | .getByName _ | .list | .children _ | .ancestors _ => true
  | _ => false

/-- One call on a `MemTenantStore`. -/
def memStep (cr : Crypto) (s : StoreState) (call : Call) : CelResult Answer × StoreState := call.apply cr s

/-! ## The file -/

/-- The same store: the counters and the sessions are equal, and the maps hold the same, in whatever order. -/
structure StoreState.Same (s s' : StoreState) : Prop where
  tenants : ∀ id, s'.tenants.lookup id = s.tenants.lookup id
  byName : ∀ name, s'.byName.lookup name = s.byName.lookup name
  nextTenantId : s'.nextTenantId = s.nextTenantId
  nextUserId : s'.nextUserId = s.nextUserId
  sessions : s'.sessions = s.sessions

/-- `serde_json` on a `StoreState`: it encodes every state, decodes what it encoded, and writes no empty text. -/
structure Codec (β : Type) where
  encode : StoreState → Except String β
  decode : β → Except String StoreState
  isEmpty : β → Bool
  round_trip : ∀ s, ∃ b s', encode s = .ok b ∧ decode b = .ok s' ∧ s.Same s' ∧ isEmpty b = false

/-- The names a store's messages give: `path`, `path.with_extension("tmp")`, and the parent directory unless it is
empty. -/
structure StorePath where
  path : String
  tmp : String
  parent : Option String

/-- The two files of a store. -/
structure Disk (β : Type) where
  file : Option β
  tmp : Option β

/-- For each file-system step of one call, the error it fails with, if it does; and what a failed write leaves. -/
structure Faults (β : Type) where
  mkdir : Option String
  create : Option String
  write : Option String
  fsync : Option String
  rename : Option String
  torn : β

structure FileTenantStore (β : Type) where
  inner : StoreState
  disk : Disk β

section FileStore

variable {β : Type} (cd : Codec β) (p : StorePath)

/-- `FileTenantStore::open`, on what the path holds; a read may fail. -/
def openFile (readFault : Option String) (disk : Disk β) : CelResult StoreState :=
  match disk.file with
  | none => .ok default
  | some bytes =>
    match readFault with
    | some e => .error (.storage ("tenant store read " ++ p.path ++ ": " ++ e))
    | none =>
      if cd.isEmpty bytes then .ok default
      else match cd.decode bytes with
        | .error e => .error (.storage ("tenant store parse " ++ p.path ++ ": " ++ e))
        | .ok s => .ok s

/-- The parent directory is made where the path names one. -/
def mkdir (faults : Faults β) : CelResult Unit :=
  match p.parent, faults.mkdir with
  | some dir, some e => .error (.storage ("tenant store mkdir " ++ dir ++ ": " ++ e))
  | _, _ => .ok ()

/-- Create, write, sync and rename, each of which may fail. -/
def replaceFile (faults : Faults β) (bytes : β) (disk : Disk β) : CelResult Unit × Disk β :=
  match faults.create with
  | some e => (.error (.storage ("tenant store tmp " ++ p.tmp ++ ": " ++ e)), disk)
  | none =>
    match faults.write with
    | some e => (.error (.storage ("tenant store write " ++ p.tmp ++ ": " ++ e)), { disk with tmp := some faults.torn })
    | none =>
      match faults.fsync with
      | some e => (.error (.storage ("tenant store fsync " ++ p.tmp ++ ": " ++ e)), { disk with tmp := some bytes })
      | none =>
        match faults.rename with
        | some e => (.error (.storage ("tenant store rename " ++ p.path ++ ": " ++ e)), { disk with tmp := some bytes })
        | none => (.ok (), { file := some bytes, tmp := none })

def persist (faults : Faults β) (s : StoreState) (disk : Disk β) : CelResult Unit × Disk β :=
  match cd.encode s with
  | .error e => (.error (.storage ("tenant store encode: " ++ e)), disk)
  | .ok bytes =>
    match mkdir p faults with
    | .error e => (.error e, disk)
    | .ok () => replaceFile p faults bytes disk

/-- `with_state`: the closure changes the guarded state first; only then, and only if it succeeded, is it written. -/
def withState {α : Type} (faults : Faults β) (f : StoreState → CelResult α × StoreState) (st : FileTenantStore β) :
    CelResult α × FileTenantStore β :=
  match f st.inner with
  | (.error e, s) => (.error e, { st with inner := s })
  | (.ok out, s) =>
    match persist cd p faults s st.disk with
    | (.error e, disk) => (.error e, ⟨s, disk⟩)
    | (.ok (), disk) => (.ok out, ⟨s, disk⟩)

/-- One call on a `FileTenantStore`, with the faults it meets. -/
def fileStep (cr : Crypto) (st : FileTenantStore β) (call : Call × Faults β) : CelResult Answer × FileTenantStore β :=
  if call.1.readOnly then ((call.1.apply cr st.inner).1, st)
  else withState cd p call.2 (fun s => call.1.apply cr s) st

/-- A store opened where there is no file yet. -/
def freshStore : FileTenantStore β := ⟨default, ⟨none, none⟩⟩

/-- The file opens to the store in memory. -/
def FileTenantStore.Durable (st : FileTenantStore β) : Prop :=
  ∃ s, openFile cd p none st.disk = .ok s ∧ st.inner.Same s

end FileStore

namespace StoreState.Same

theorem refl (s : StoreState) : s.Same s := ⟨fun _ => rfl, fun _ => rfl, rfl, rfl, rfl⟩

theorem symm {s s' : StoreState} (h : s.Same s') : s'.Same s :=
  ⟨fun id => (h.tenants id).symm, fun name => (h.byName name).symm, h.nextTenantId.symm, h.nextUserId.symm, h.sessions.symm⟩

theorem trans {s s' s'' : StoreState} (h : s.Same s') (h' : s'.Same s'') : s.Same s'' :=
  ⟨fun id => (h'.tenants id).trans (h.tenants id), fun name => (h'.byName name).trans (h.byName name),
    h'.nextTenantId.trans h.nextTenantId, h'.nextUserId.trans h.nextUserId, h'.sessions.trans h.sessions⟩

end StoreState.Same

/-! ## What one call leaves on the disk -/

/-- Every step that runs goes through. -/
def Faults.Clear {β : Type} (p : StorePath) (faults : Faults β) : Prop :=
  (p.parent.isSome → faults.mkdir = none) ∧ faults.create = none ∧ faults.write = none ∧ faults.fsync = none ∧
    faults.rename = none

section Sync

variable {β : Type} (cd : Codec β) (p : StorePath) (cr : Crypto)

theorem mkdir_ok_iff (faults : Faults β) : mkdir p faults = .ok () ↔ (p.parent.isSome → faults.mkdir = none) := by
  unfold mkdir
  split
  · rename_i dir e hp he
    simp [hp, he]
  · rename_i h
    refine iff_of_true rfl fun hp => ?_
    obtain ⟨dir, hdir⟩ := Option.isSome_iff_exists.1 hp
    cases hm : faults.mkdir with
    | none => rfl
    | some e => exact (h dir e hdir hm).elim

/-- **What `persist` does**: it goes through and the file decodes to the state, or it fails and the file is as it
was. -/
theorem persist_cases (faults : Faults β) (s : StoreState) (disk : Disk β) :
    (faults.Clear p ∧
      ∃ disk' s', persist cd p faults s disk = (.ok (), disk') ∧ openFile cd p none disk' = .ok s' ∧ s.Same s') ∨
    ¬ faults.Clear p ∧ ∃ e disk', persist cd p faults s disk = (.error e, disk') ∧ disk'.file = disk.file := by
  obtain ⟨bytes, s', henc, hdec, hsame, hne⟩ := cd.round_trip s
  unfold persist
  simp only [henc]
  cases hm : mkdir p faults with
  | error e =>
    refine .inr ⟨fun h => ?_, e, disk, rfl, rfl⟩
    rw [(mkdir_ok_iff p faults).2 h.1] at hm
    cases hm
  | ok _ =>
    have hdir := (mkdir_ok_iff p faults).1 hm
    unfold replaceFile Faults.Clear
    cases hc : faults.create with
    | some e => exact .inr ⟨by simp, _, _, rfl, rfl⟩
    | none =>
      cases hw : faults.write with
      | some e => exact .inr ⟨by simp, _, _, rfl, rfl⟩
      | none =>
        cases hf : faults.fsync with
        | some e => exact .inr ⟨by simp, _, _, rfl, rfl⟩
        | none =>
          cases hr : faults.rename with
          | some e => exact .inr ⟨by simp, _, _, rfl, rfl⟩
          | none =>
            refine .inl ⟨⟨hdir, rfl, rfl, rfl, rfl⟩, _, s', rfl, ?_, hsame⟩
            simp [openFile, hne, hdec]

/-- **What `with_state` does**: the closure fails and nothing is written; it succeeds and the file follows; or it
succeeds and the file is as it was. -/
theorem withState_cases {α : Type} (faults : Faults β) (f : StoreState → CelResult α × StoreState)
    (st : FileTenantStore β) :
    (∃ e, (f st.inner).1 = .error e ∧ withState cd p faults f st = (.error e, ⟨(f st.inner).2, st.disk⟩)) ∨
    (∃ out disk', (f st.inner).1 = .ok out ∧ faults.Clear p ∧
      withState cd p faults f st = (.ok out, ⟨(f st.inner).2, disk'⟩) ∧
      FileTenantStore.Durable cd p ⟨(f st.inner).2, disk'⟩) ∨
    ∃ out e disk', (f st.inner).1 = .ok out ∧ ¬ faults.Clear p ∧
      withState cd p faults f st = (.error e, ⟨(f st.inner).2, disk'⟩) ∧ disk'.file = st.disk.file := by
  unfold withState
  rcases hf : f st.inner with ⟨_ | out, s⟩
  · exact .inl ⟨_, rfl, rfl⟩
  · rcases persist_cases cd p faults s st.disk with ⟨hclear, disk', s', hp, hopen, hsame⟩ | ⟨hno, e, disk', hp, hfile⟩
    · exact .inr (.inl ⟨out, disk', rfl, hclear, by simp only [hp], s', hopen, hsame⟩)
    · exact .inr (.inr ⟨out, e, disk', rfl, hno, by simp only [hp], hfile⟩)

theorem apply_readOnly {s : StoreState} {call : Call} (h : call.readOnly = true) : (call.apply cr s).2 = s := by
  cases call with
  | op o => cases h
  | _ => rfl

/-- The state in memory is the one the call leaves, whatever becomes of the file. -/
theorem fileStep_inner (st : FileTenantStore β) (call : Call × Faults β) :
    (fileStep cd p cr st call).2.inner = (call.1.apply cr st.inner).2 := by
  unfold fileStep
  by_cases hro : call.1.readOnly
  · rw [if_pos hro, apply_readOnly cr hro]
  · rw [if_neg hro]
    rcases withState_cases cd p call.2 (fun s => call.1.apply cr s) st with
      ⟨e, -, h⟩ | ⟨out, disk', -, -, h, -⟩ | ⟨out, e, disk', -, -, h, -⟩ <;> rw [h]

/-- The state a file that is as it was opens to. -/
theorem openFile_congr {disk disk' : Disk β} (h : disk'.file = disk.file) :
    openFile cd p none disk' = openFile cd p none disk := by
  unfold openFile
  rw [h]

/-- A call that is refused after having changed something: a `create` with a bad name. -/
def Call.BadName (s : StoreState) : Call → Prop
  | .op o => s.BadName o
  | _ => False

theorem call_ok_or_same {s : StoreState} (hwf : s.TreeWf) (call : Call) :
    (∃ a, (call.apply cr s).1 = .ok a) ∨ (call.apply cr s).2 = s ∨ call.BadName s := by
  cases call with
  | op o =>
    rcases StoreState.step_ok_or_same cr hwf o with ⟨r, hr⟩ | hs | hbad
    · exact .inl ⟨.reply r, by simp only [Call.apply, hr]; rfl⟩
    · exact .inr (.inl hs)
    · exact .inr (.inr hbad)
  | _ => exact .inr (.inl rfl)

theorem call_badName {s : StoreState} (hwf : s.TreeWf) {call : Call} (h : call.BadName s) :
    ∃ e, (call.apply cr s).1 = .error e := by
  cases call with
  | op o =>
    obtain ⟨⟨e, he⟩, -⟩ := StoreState.step_badName cr hwf h
    exact ⟨e, by simp only [Call.apply, he]; rfl⟩
  | _ => exact h.elim

/-- A call that changes the store is not a `create` with a bad name, and all its file-system steps go through. -/
def ReachesDisk (cr : Crypto) (p : StorePath) (st : FileTenantStore β) (call : Call × Faults β) : Prop :=
  ¬ st.inner.Same (call.1.apply cr st.inner).2 → call.2.Clear p ∧ ¬ call.1.BadName st.inner

/-- **One call keeps the file and the memory the same iff what it changes reaches the disk.** -/
theorem fileStep_sync_iff {st : FileTenantStore β} (hwf : st.inner.TreeWf) (hsync : st.Durable cd p)
    (call : Call × Faults β) : (fileStep cd p cr st call).2.Durable cd p ↔ ReachesDisk cr p st call := by
  -- a file that is as it was still opens to the old state
  have hkeep : ∀ disk' : Disk β, disk'.file = st.disk.file →
      (FileTenantStore.Durable cd p ⟨(call.1.apply cr st.inner).2, disk'⟩ ↔ st.inner.Same (call.1.apply cr st.inner).2) := by
    intro disk' hfile
    obtain ⟨s, hopen, hs⟩ := hsync
    unfold FileTenantStore.Durable
    rw [openFile_congr cd p hfile, hopen]
    constructor
    · rintro ⟨s', heq, hs'⟩
      obtain rfl := Except.ok.inj heq
      exact hs.trans hs'.symm
    · exact fun hsame => ⟨s, rfl, hsame.symm.trans hs⟩
  unfold fileStep ReachesDisk
  by_cases hro : call.1.readOnly
  · have heq : (call.1.apply cr st.inner).2 = st.inner := apply_readOnly cr hro
    rw [if_pos hro, heq]
    exact iff_of_true hsync (fun hne => absurd (.refl _) hne)
  rw [if_neg hro]
  rcases withState_cases cd p call.2 (fun s => call.1.apply cr s) st with
    ⟨e, he, h⟩ | ⟨out, disk', hout, hclear, h, hopen⟩ | ⟨out, e, disk', -, hno, h, hfile⟩
  · -- refused: in sync iff nothing changed, and what changes something is a bad name
    rw [h, hkeep st.disk rfl]
    refine ⟨fun hsame hne => absurd hsame hne, fun hreach => ?_⟩
    by_contra hne
    rcases call_ok_or_same cr hwf call.1 with ⟨out, hout⟩ | heq | hbad
    · rw [he] at hout
      cases hout
    · exact hne (heq.symm ▸ .refl _)
    · exact (hreach hne).2 hbad
  · have hgood : ¬ call.1.BadName st.inner := by
      intro hbad
      obtain ⟨e, he⟩ := call_badName cr hwf hbad
      rw [he] at hout
      cases hout
    rw [h]
    exact iff_of_true hopen (fun _ => ⟨hclear, hgood⟩)
  · rw [h, hkeep disk' hfile]
    refine ⟨fun hsame hne => absurd hsame hne, fun hreach => ?_⟩
    by_contra hne
    exact hno (hreach hne).1

/-- Where no step fails, the answer is the one of the store in memory. -/
theorem fileStep_clear (st : FileTenantStore β) {call : Call × Faults β} (h : call.2.Clear p) :
    (fileStep cd p cr st call).1 = (memStep cr st.inner call.1).1 := by
  unfold fileStep memStep
  by_cases hro : call.1.readOnly
  · rw [if_pos hro]
  · rw [if_neg hro]
    rcases withState_cases cd p call.2 (fun s => call.1.apply cr s) st with
      ⟨e, he, hw⟩ | ⟨out, disk', hout, -, hw, -⟩ | ⟨out, e, disk', -, hno, -⟩
    · rw [hw, he]
    · rw [hw, hout]
    · exact absurd h hno

theorem call_treeWf {s : StoreState} (h : s.TreeWf) (call : Call) : (call.apply cr s).2.TreeWf := by
  cases call with
  | op o => exact step_treeWf cr s o h
  | _ => exact h

end Sync

/-- **The durable store against the one in memory.**  In every run from a fresh store, under any pattern of faults, the
file opens to the store in memory after every call iff every call that changes the store goes through to the rename and is
not a `create` with a bad name; and in a run without faults the answers and the final state are those of a
`MemTenantStore` on the same calls. -/
theorem file_store_refines {β : Type} (cd : Codec β) (p : StorePath) (cr : Crypto) (calls : List (Call × Faults β)) :
    ((∀ st ∈ states (fileStep cd p cr) freshStore calls, st.Durable cd p) ↔
      Along (fileStep cd p cr) (ReachesDisk cr p) freshStore calls) ∧
    ((∀ call ∈ calls, call.2.Clear p) →
      answers (fileStep cd p cr) freshStore calls = answers (memStep cr) default (calls.map Prod.fst) ∧
      (run (fileStep cd p cr) freshStore calls).inner = run (memStep cr) default (calls.map Prod.fst)) := by
  constructor
  · have hinv : ∀ (st : FileTenantStore β) (call : Call × Faults β), st.inner.TreeWf →
        (fileStep cd p cr st call).2.inner.TreeWf := by
      intro st call h
      rw [fileStep_inner]
      exact call_treeWf cr h call.1
    exact states_iff_along (I := fun st : FileTenantStore β => st.inner.TreeWf)
      (P := fun st : FileTenantStore β => st.Durable cd p)
      hinv (fun st call hwf hsync => fileStep_sync_iff cd p cr hwf hsync call) treeWf_default ⟨_, rfl, .refl _⟩ calls
  · intro hclear
    refine sim_run (R := fun (st : FileTenantStore β) s => st.inner = s) (D := fun call : Call × Faults β => call.2.Clear p)
      (fun st s call h hc => ?_) calls rfl hclear
    subst h
    exact ⟨fileStep_clear cd p cr st hc, fileStep_inner cd p cr st call⟩

/-- A codec whose text is the state itself; `none` is the empty text. -/
def Codec.image : Codec (Option StoreState) where
  encode s := .ok (some s)
  decode
    | none   => .error "EOF while parsing a value at line 1 column 0"
    | some s => .ok s
  isEmpty := Option.isNone
  round_trip s := ⟨some s, s, rfl, rfl, .refl s, rfl⟩

/-- A `create` whose rename fails. -/
def lostRename : List (Call × Faults (Option StoreState)) :=
  [(.op (.create ⟨"acme", .unlimited, none⟩ .all), ⟨none, none, none, none, some "Permission denied (os error 13)", none⟩)]

/-- The tenant is refused, is there in memory, and is not there after a restart. -/
theorem lost_rename_splits : ¬ ∃ cr : Crypto,
    ∀ st ∈ states (fileStep Codec.image ⟨"tenants.json", "tenants.tmp", none⟩ cr) freshStore lostRename,
      st.Durable Codec.image ⟨"tenants.json", "tenants.tmp", none⟩ := by
  rintro ⟨cr, h⟩
  obtain ⟨s, hopen, hsame⟩ := h _ (run_mem_states _ _)
  have hfile : openFile Codec.image ⟨"tenants.json", "tenants.tmp", none⟩ none
      (run (fileStep Codec.image ⟨"tenants.json", "tenants.tmp", none⟩ cr) freshStore lostRename).disk =
        .ok default := rfl
  have hmem : (run (fileStep Codec.image ⟨"tenants.json", "tenants.tmp", none⟩ cr) freshStore lostRename).inner.nextTenantId
      = 1 := rfl
  obtain rfl := Except.ok.inj (hfile.symm.trans hopen)
  have hnone := hsame.nextTenantId
  rw [hmem] at hnone
  cases hnone

end Celium
