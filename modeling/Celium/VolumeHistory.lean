import Celium.Lib.Runs
import Celium.VolumeCalls
/-!
# VolumeHistory — what is in a volume, read off the log of calls

A log holds every call with its answer, the latest first.  What it says is in a volume is a matter of the log alone: zero
bytes from the create on, then the writes and the restores that were answered `Ok`, in order; what a snapshot holds is
what was in its volume when it was taken; and it is kept until it is deleted, or its volume is.  `MemVolumeStore` keeps to
it as long as no snapshot is taken of a volume whose owner has an `@` in its name: such a snapshot cannot be restored.
-/
namespace Celium

open Fixed Runs

/-! ## Logs -/

abbrev VolumeLog := List (VolumeOp × CelResult VolumeReply)

/-- The bytes with `data` from `offset` on. -/
def splice (offset : Nat) (data body : List UInt8) : List UInt8 :=
  body.take offset ++ data ++ body.drop (offset + data.length)

/-- What is in each volume, for each snapshot that was taken its volume and what was in it, and the volumes of those that
are still kept. -/
structure VolumeSpec where
  contents : VolumeId → Option (List UInt8)
  taken : SnapshotId → Option (VolumeId × List UInt8)
  kept : SnapshotId → Option VolumeId

def VolumeSpec.empty : VolumeSpec := ⟨fun _ => none, fun _ => none, fun _ => none⟩

def VolumeSpec.record (t : VolumeSpec) : VolumeOp × CelResult VolumeReply → VolumeSpec
  | (.create .., .ok (.volume m)) =>
    { t with contents := Function.update t.contents m.id (some (List.replicate m.sizeBytes.toNat 0)) }
  | (.delete id, .ok _) =>
    { t with contents := Function.update t.contents id none
             kept := fun k => if t.kept k = some id then none else t.kept k }
  | (.write id offset data, .ok _) =>
    { t with contents := Function.update t.contents id ((t.contents id).map (splice offset.toNat data)) }
  | (.createSnapshot id _, .ok (.snapshot m)) =>
    { t with taken := Function.update t.taken m.id ((t.contents id).map (fun body => (id, body)))
             kept := Function.update t.kept m.id (some id) }
  | (.deleteSnapshot k, .ok _) => { t with kept := Function.update t.kept k none }
  | (.restoreSnapshot k, .ok _) =>
    match t.taken k with
    | some (id, body) => { t with contents := Function.update t.contents id (some body) }
    | none => t
  | _ => t

namespace VolumeLog

def spec (log : VolumeLog) : VolumeSpec := log.foldr (fun e t => t.record e) .empty

/-- The ids that were given out to volumes. -/
def volumeIds (log : VolumeLog) : List VolumeId :=
  log.filterMap fun
    | (.create .., .ok (.volume m)) => some m.id
    | _ => none

/-- The ids that were given out to snapshots. -/
def snapshotIds (log : VolumeLog) : List SnapshotId :=
  log.filterMap fun
    | (.createSnapshot .., .ok (.snapshot m)) => some m.id
    | _ => none

end VolumeLog

/-- A call, with its entry in the log. -/
def MemVolumeStore.logged (s : MemVolumeStore × VolumeLog) (op : VolumeOp) :
    CelResult VolumeReply × (MemVolumeStore × VolumeLog) :=
  ((s.1.apply op).1, ((s.1.apply op).2, (op, (s.1.apply op).1) :: s.2))

/-! ## What a store owes its log -/

/-- The store does what its log says. -/
structure Faithful (s : MemVolumeStore) (log : VolumeLog) : Prop where
  body : ∀ id, (s.rows.lookup id).map (·.body) = log.spec.contents id
  size : ∀ id v, s.rows.lookup id = some v → v.body.length = v.meta_.sizeBytes.toNat
  read : ∀ id offset len body, log.spec.contents id = some body → offset.toNat + len ≤ body.length →
    s.read id offset len = .ok ((body.drop offset.toNat).take len)
  read_out : ∀ id offset len, (∀ body, log.spec.contents id = some body → body.length < offset.toNat + len) →
    ∃ e, s.read id offset len = .error e
  write : ∀ id offset data body, log.spec.contents id = some body → offset.toNat + data.length ≤ body.length →
    (s.write id offset data).1 = .ok ()
  write_out : ∀ id offset data, (∀ body, log.spec.contents id = some body → body.length < offset.toNat + data.length) →
    ∃ e, s.write id offset data = (.error e, s)
  restore : ∀ k sn v, s.snaps.lookup k = some sn → s.rows.lookup sn.meta_.volume = some v →
    ∃ body, log.spec.taken k = some (sn.meta_.volume, body) ∧
      s.restoreSnapshot k = (.ok (), { s with rows := s.rows.insert sn.meta_.volume { v with body } })
  kept : ∀ k, (s.snaps.lookup k).map (·.meta_.volume) = log.spec.kept k
  delete_volume : ∀ id id', (s.delete id).2.rows.lookup id' = if id' = id then none else s.rows.lookup id'
  delete_snapshots : ∀ id k sn, (s.delete id).2.snaps.lookup k = some sn ↔
    s.snaps.lookup k = some sn ∧ sn.meta_.volume ≠ id
  volumeIds : log.volumeIds.Nodup
  snapshotIds : log.snapshotIds.Nodup
  clean : s.integrityCheck.isClean = true

/-- No snapshot is taken of a volume whose owner has an `@`, nor one more than there are counters. -/
def MemVolumeStore.SplitsBack (s : MemVolumeStore) : VolumeOp → Prop
  | .createSnapshot id name =>
    MemVolumeStore.validateName name = .ok () → ∀ v ∈ s.rows.lookup id,
      '@' ∉ v.meta_.owner.toList ∧ ((s.nextSnap.lookup id).getD 0).toNat < u64Max
  | _ => True

instance (s : MemVolumeStore) (op : VolumeOp) : Decidable (s.SplitsBack op) :=
  match op with
  | .createSnapshot id name =>
    inferInstanceAs (Decidable (MemVolumeStore.validateName name = .ok () → ∀ v ∈ s.rows.lookup id,
      '@' ∉ v.meta_.owner.toList ∧ ((s.nextSnap.lookup id).getD 0).toNat < u64Max))
  | .create .. | .delete _ | .list | .get _ | .read .. | .write .. | .listSnapshots _ | .deleteSnapshot _
  | .restoreSnapshot _ => .isTrue trivial

def VolumeOp.isCreate : VolumeOp → Bool
  | .create .. => true
  | _ => false

/-! ## What is kept -/

/-- The store beside its log, whether or not its snapshots can be restored. -/
structure Logged (s : MemVolumeStore) (log : VolumeLog) : Prop where
  body : ∀ id, log.spec.contents id = (s.rows.lookup id).map (·.body)
  volume : ∀ id v, s.rows.lookup id = some v → v.meta_.id = id ∧ v.body.length = v.meta_.sizeBytes.toNat ∧
    v.meta_.sizeBytes ≠ 0 ∧ id ∈ log.volumeIds ∧ ∃ n, id = MemVolumeStore.volumeId v.meta_.owner n
  snapshot : ∀ k sn, s.snaps.lookup k = some sn → sn.meta_.id = k ∧
    log.spec.taken k = some (sn.meta_.volume, sn.body) ∧ (∃ n, k = sn.meta_.volume.snapshot n) ∧
    sn.body.length = sn.meta_.sizeBytes.toNat ∧
    ∃ v, s.rows.lookup sn.meta_.volume = some v ∧ v.meta_.sizeBytes = sn.meta_.sizeBytes
  kept : ∀ k, log.spec.kept k = (s.snaps.lookup k).map (·.meta_.volume)
  volumeIds : log.volumeIds.Nodup
  issued : ∀ id ∈ log.volumeIds, ∃ owner n, id = MemVolumeStore.volumeId owner n ∧ n.toNat ≤ s.next.toNat
  issuedSnapshots : ∀ k ∈ log.snapshotIds, ∃ id n, k = id.snapshot n ∧ id ∈ log.volumeIds ∧
    ((s.rows.lookup id).isSome → n.toNat ≤ ((s.nextSnap.lookup id).getD 0).toNat)
  counter : ∀ id n, s.nextSnap.lookup id = some n → id.snapshot n ∈ log.snapshotIds

section Step

variable {s : MemVolumeStore} {log : VolumeLog}

/-- An entry that says nothing new. -/
def QuietEntry (e : VolumeOp × CelResult VolumeReply) : Prop :=
  (∀ t : VolumeSpec, t.record e = t) ∧ VolumeLog.volumeIds [e] = [] ∧ VolumeLog.snapshotIds [e] = []

theorem quiet_error (op : VolumeOp) (e : CelError) : QuietEntry (op, .error e) := by
  refine ⟨fun t => ?_, ?_, ?_⟩
  · cases op <;> rfl
  · cases op <;> rfl
  · cases op <;> rfl

theorem volumeIds_cons (e : VolumeOp × CelResult VolumeReply) (log : VolumeLog) :
    VolumeLog.volumeIds (e :: log) = VolumeLog.volumeIds [e] ++ log.volumeIds :=
  List.filterMap_append (l := [e])

theorem snapshotIds_cons (e : VolumeOp × CelResult VolumeReply) (log : VolumeLog) :
    VolumeLog.snapshotIds (e :: log) = VolumeLog.snapshotIds [e] ++ log.snapshotIds :=
  List.filterMap_append (l := [e])

theorem spec_cons (e : VolumeOp × CelResult VolumeReply) (log : VolumeLog) :
    VolumeLog.spec (e :: log) = log.spec.record e := rfl

theorem Logged.quiet (h : Logged s log) {e : VolumeOp × CelResult VolumeReply} (he : QuietEntry e) :
    Logged s (e :: log) ∧ VolumeLog.snapshotIds (e :: log) = log.snapshotIds := by
  obtain ⟨hrecord, hvolumes, hsnapshots⟩ := he
  have hspec : VolumeLog.spec (e :: log) = log.spec := hrecord _
  have hvolumes' : VolumeLog.volumeIds (e :: log) = log.volumeIds := by rw [volumeIds_cons, hvolumes]; rfl
  have hsnapshots' : VolumeLog.snapshotIds (e :: log) = log.snapshotIds := by rw [snapshotIds_cons, hsnapshots]; rfl
  refine ⟨?_, hsnapshots'⟩
  constructor
  · rw [hspec]
    exact h.body
  · rw [hvolumes']
    exact h.volume
  · rw [hspec]
    exact h.snapshot
  · rw [hspec]
    exact h.kept
  · rw [hvolumes']
    exact h.volumeIds
  · rw [hvolumes']
    exact h.issued
  · rw [hvolumes', hsnapshots']
    exact h.issuedSnapshots
  · rw [hsnapshots']
    exact h.counter

/-! ## One call -/

/-- A new volume has an id that was never given out. -/
theorem Logged.fresh_id (h : Logged s log) (owner : String) (hroom : s.next.toNat < u64Max) :
    MemVolumeStore.volumeId owner (satAdd64 s.next 1) ∉ log.volumeIds := by
  intro hmem
  obtain ⟨o, n, hid, hle⟩ := h.issued _ hmem
  rw [← (MemVolumeStore.volumeId_inj hid).2, toNat_satAdd64] at hle
  simp at hle
  omega

theorem Logged.create (h : Logged s log) (owner : String) {name : String} {size : UInt64} (hok : CreateOk name size)
    (hroom : s.next.toNat < u64Max) :
    Logged (s.apply (.create owner name size)).2 ((.create owner name size, (s.apply (.create owner name size)).1) :: log) := by
  have hnew := h.fresh_id owner hroom
  have happly : s.apply (.create owner name size) = _ :=
    congrArg (fun p : CelResult VolumeMeta × MemVolumeStore => (p.1.map VolumeReply.volume, p.2)) (s.create_valid owner hok)
  rw [happly]
  generalize hid : MemVolumeStore.volumeId owner (satAdd64 s.next 1) = new at *
  have hlive : ∀ id, (s.rows.lookup id).isSome → id ≠ new := by
    rintro id hsome rfl
    obtain ⟨v, hv⟩ := Option.isSome_iff_exists.1 hsome
    exact hnew (h.volume _ v hv).2.2.2.1
  have hids : VolumeLog.volumeIds ((.create owner name size, .ok (.volume ⟨new, owner, name, size⟩)) :: log) =
      new :: log.volumeIds := rfl
  constructor
  · intro id
    change Function.update log.spec.contents new _ id = _
    simp only [Function.update_apply, Assoc.lookup_insert_ite, h.body id]
    split
    · rfl
    · rfl
  · intro id v hv
    rw [Assoc.lookup_insert_ite] at hv
    split at hv
    · rename_i heq
      obtain rfl := Option.some.inj hv
      exact ⟨heq.symm, List.length_replicate, hok.2.1, heq ▸ List.mem_cons_self, _, heq.trans hid.symm⟩
    · obtain ⟨hmeta, hlen, hsize, hmem, hn⟩ := h.volume id v hv
      exact ⟨hmeta, hlen, hsize, List.mem_cons_of_mem _ hmem, hn⟩
  · intro k sn hsn
    obtain ⟨hmeta, htaken, hk, hlen, v, hv, hsize⟩ := h.snapshot k sn hsn
    refine ⟨hmeta, htaken, hk, hlen, v, ?_, hsize⟩
    rw [Assoc.lookup_insert_ite, if_neg (hlive _ (by rw [hv]; rfl))]
    exact hv
  · exact h.kept
  · exact List.nodup_cons.2 ⟨hnew, h.volumeIds⟩
  · intro id hmem
    rcases List.mem_cons.1 hmem with rfl | hmem
    · exact ⟨owner, _, hid.symm, Nat.le_refl _⟩
    · obtain ⟨o, n, hid', hle⟩ := h.issued id hmem
      refine ⟨o, n, hid', hle.trans ?_⟩
      rw [toNat_satAdd64]
      simp
      omega
  · intro k hk
    obtain ⟨id, n, hkid, hmem, hle⟩ := h.issuedSnapshots k hk
    have hne : id ≠ new := fun heq => hnew (heq ▸ hmem)
    refine ⟨id, n, hkid, List.mem_cons_of_mem _ hmem, ?_⟩
    rw [Assoc.lookup_insert_ite, if_neg hne]
    exact hle
  · exact h.counter

theorem Logged.delete (h : Logged s log) (id : VolumeId) :
    Logged (s.delete id).2 ((.delete id, .ok .done) :: log) := by
  constructor
  · intro id'
    change Function.update log.spec.contents id none id' = _
    simp only [Function.update_apply, MemVolumeStore.delete, Assoc.lookup_erase_ite, h.body id']
    split
    · rfl
    · rfl
  · intro id' v hv
    simp only [MemVolumeStore.delete, Assoc.lookup_erase_ite] at hv
    split at hv
    · cases hv
    · exact h.volume id' v hv
  · intro k sn hsn
    obtain ⟨hsn, hne⟩ := s.delete_snaps.1 hsn
    obtain ⟨hmeta, htaken, hk, hlen, v, hv, hsize⟩ := h.snapshot k sn hsn
    refine ⟨hmeta, htaken, hk, hlen, v, ?_, hsize⟩
    simp only [MemVolumeStore.delete, Assoc.lookup_erase_ite, if_neg hne, hv]
  · intro k
    change (if log.spec.kept k = some id then none else log.spec.kept k) = _
    rw [h.kept k, s.delete_snaps_volume]
  · exact h.volumeIds
  · exact h.issued
  · intro k hk
    obtain ⟨id', n, hkid, hmem, hle⟩ := h.issuedSnapshots k hk
    refine ⟨id', n, hkid, hmem, ?_⟩
    simp only [MemVolumeStore.delete, Assoc.lookup_erase_ite]
    split
    · intro hsome
      cases hsome
    · exact hle
  · intro id' n hn
    simp only [MemVolumeStore.delete, Assoc.lookup_erase_ite] at hn
    split at hn
    · cases hn
    · exact h.counter id' n hn

/-- A volume gets another body of its length, and the log says so. -/
theorem Logged.setBody (h : Logged s log) {id : VolumeId} {v : MemVolume} (hv : s.rows.lookup id = some v)
    {body : List UInt8} (hlen : body.length = v.body.length) {e : VolumeOp × CelResult VolumeReply}
    (hspec : VolumeLog.spec (e :: log) = { log.spec with contents := Function.update log.spec.contents id (some body) })
    (hvolumes : VolumeLog.volumeIds [e] = []) (hsnapshots : VolumeLog.snapshotIds [e] = []) :
    Logged { s with rows := s.rows.insert id { v with body } } (e :: log) := by
  have hvolumes' : VolumeLog.volumeIds (e :: log) = log.volumeIds := by rw [volumeIds_cons, hvolumes]; rfl
  have hsnapshots' : VolumeLog.snapshotIds (e :: log) = log.snapshotIds := by rw [snapshotIds_cons, hsnapshots]; rfl
  constructor
  · intro id'
    rw [hspec]
    simp only [Function.update_apply, Assoc.lookup_insert_ite, h.body id']
    split
    · rfl
    · rfl
  · intro id' v' hv'
    rw [hvolumes']
    rw [Assoc.lookup_insert_ite] at hv'
    split at hv'
    · rename_i heq
      subst heq
      obtain rfl := Option.some.inj hv'
      obtain ⟨hmeta, hsize, hrest⟩ := h.volume id' v hv
      exact ⟨hmeta, hlen.trans hsize, hrest⟩
    · exact h.volume id' v' hv'
  · intro k sn hsn
    obtain ⟨hmeta, htaken, hk, hlen', v', hv', hsize⟩ := h.snapshot k sn hsn
    refine ⟨hmeta, by rw [hspec]; exact htaken, hk, hlen', ?_⟩
    rw [Assoc.lookup_insert_ite]
    split
    · rename_i heq
      rw [heq, hv] at hv'
      obtain rfl := Option.some.inj hv'
      exact ⟨_, rfl, hsize⟩
    · exact ⟨v', hv', hsize⟩
  · rw [hspec]
    exact h.kept
  · rw [hvolumes']
    exact h.volumeIds
  · rw [hvolumes']
    exact h.issued
  · rw [hvolumes', hsnapshots']
    intro k hk
    obtain ⟨id', n, hkid, hmem, hle⟩ := h.issuedSnapshots k hk
    refine ⟨id', n, hkid, hmem, fun hsome => hle ?_⟩
    rw [Assoc.lookup_insert_ite] at hsome
    split at hsome
    · rename_i heq
      rw [heq, hv]
      rfl
    · exact hsome
  · rw [hsnapshots']
    exact h.counter

/-- What the range check of `read` and `write` comes to. -/
theorem Logged.range (h : Logged s log) (id : VolumeId) (offset : UInt64) (len : Nat) (what : String) :
    (∃ v, s.rows.lookup id = some v ∧ offset.toNat + len ≤ v.body.length ∧ s.range id offset len what = .ok v) ∨
      (∀ body, log.spec.contents id = some body → body.length < offset.toNat + len) ∧
        ∃ e, s.range id offset len what = .error e := by
  rw [h.body id, MemVolumeStore.range]
  cases hv : s.rows.lookup id with
  | none => exact .inr ⟨nofun, _, rfl⟩
  | some v =>
    obtain ⟨-, hlen, -⟩ := h.volume id v hv
    have hmax := le_u64Max v.meta_.sizeBytes
    by_cases hin : offset.toNat + len ≤ v.body.length
    · refine .inl ⟨v, rfl, hin, ?_⟩
      have hadd : checkedAdd64 offset.toNat len = some (offset.toNat + len) := if_pos (by omega)
      simp only [hadd, if_neg (Nat.not_lt.2 hin)]
    · refine .inr ⟨?_, ?_⟩
      · rintro body ⟨⟩
        exact Nat.not_le.1 hin
      · simp only
        split
        · exact ⟨_, rfl⟩
        · rename_i stop hstop
          obtain ⟨rfl, -⟩ := checkedAdd64_eq_some hstop
          rw [if_pos (Nat.not_le.1 hin)]
          exact ⟨_, rfl⟩

theorem splice_length {offset : Nat} {data body : List UInt8} (h : offset + data.length ≤ body.length) :
    (splice offset data body).length = body.length := by
  simp only [splice, List.length_append, List.length_take, List.length_drop]
  omega

/-- A write, as it goes through or does not. -/
theorem Logged.write_cases (h : Logged s log) (id : VolumeId) (offset : UInt64) (data : List UInt8) :
    (∃ v, s.rows.lookup id = some v ∧ offset.toNat + data.length ≤ v.body.length ∧
      s.write id offset data =
        (.ok (), { s with rows := s.rows.insert id { v with body := splice offset.toNat data v.body } })) ∨
    (∀ body, log.spec.contents id = some body → body.length < offset.toNat + data.length) ∧
      ∃ e, s.write id offset data = (.error e, s) := by
  unfold MemVolumeStore.write
  rcases h.range id offset data.length "write" with ⟨v, hv, hin, hrange⟩ | ⟨hout, e, hrange⟩
  · exact .inl ⟨v, hv, hin, by simp only [hrange]; rfl⟩
  · exact .inr ⟨hout, e, by simp only [hrange]⟩

theorem Logged.write (h : Logged s log) {id : VolumeId} {offset : UInt64} {data : List UInt8} {v : MemVolume}
    (hv : s.rows.lookup id = some v) (hin : offset.toNat + data.length ≤ v.body.length) :
    Logged { s with rows := s.rows.insert id { v with body := splice offset.toNat data v.body } }
      ((.write id offset data, .ok .done) :: log) := by
  refine h.setBody hv (splice_length hin) ?_ rfl rfl
  rw [spec_cons, VolumeSpec.record, h.body id, hv]
  rfl

/-- **A snapshot of a volume is restored to that volume, or refused because its id cannot be split.** -/
theorem Logged.restore_cases (h : Logged s log) {k : SnapshotId} {sn : MemSnapshot} {v : MemVolume}
    (hsn : s.snaps.lookup k = some sn) (hv : s.rows.lookup sn.meta_.volume = some v) :
    ('@' ∉ v.meta_.owner.toList ∧ s.restoreSnapshot k =
      (.ok (), { s with rows := s.rows.insert sn.meta_.volume { v with body := sn.body } })) ∨
    ('@' ∈ v.meta_.owner.toList ∧ ∃ e, s.restoreSnapshot k = (.error e, s)) := by
  obtain ⟨-, -, ⟨n, hk⟩, hlen, v', hv', hsize⟩ := h.snapshot k sn hsn
  obtain rfl := Option.some.inj (hv.symm.trans hv')
  obtain ⟨-, hlen', -, -, m, hid⟩ := h.volume _ v hv
  by_cases hat : '@' ∈ v.meta_.owner.toList
  · refine .inr ⟨hat, ?_⟩
    have hsplit : k.split = none := by rw [hk, hid, SnapshotId.split_at hat]
    exact ⟨_, by simp only [MemVolumeStore.restoreSnapshot, hsn, hsplit]; rfl⟩
  · refine .inl ⟨hat, ?_⟩
    have hsplit : k.split = some (sn.meta_.volume, n.toNat) := by
      rw [hk, SnapshotId.split_snapshot]
      rw [hid, MemVolumeStore.at_mem_volumeId]
      exact hat
    have hsame : v.body.length = sn.body.length := by rw [hlen', hlen, hsize]
    simp only [MemVolumeStore.restoreSnapshot, hsn, hsplit, hv, hsame, ne_eq, not_true_eq_false, if_false]

theorem Logged.restore (h : Logged s log) {k : SnapshotId} {sn : MemSnapshot} {v : MemVolume}
    (hsn : s.snaps.lookup k = some sn) (hv : s.rows.lookup sn.meta_.volume = some v) :
    Logged { s with rows := s.rows.insert sn.meta_.volume { v with body := sn.body } }
      ((.restoreSnapshot k, .ok .done) :: log) := by
  obtain ⟨-, htaken, -, hlen, v', hv', hsize⟩ := h.snapshot k sn hsn
  obtain rfl := Option.some.inj (hv.symm.trans hv')
  obtain ⟨-, hlen', -⟩ := h.volume _ v hv
  refine h.setBody hv (by rw [hlen, hlen', hsize]) ?_ rfl rfl
  rw [spec_cons, VolumeSpec.record, htaken]

theorem Logged.createSnapshot_cases (h : Logged s log) (id : VolumeId) (name : String) :
    (∃ v, MemVolumeStore.validateName name = .ok () ∧ s.rows.lookup id = some v ∧
      s.createSnapshot id name =
        let n := satAdd64 ((s.nextSnap.lookup id).getD 0) 1
        (.ok ⟨id.snapshot n, id, name, v.meta_.sizeBytes⟩,
          { s with nextSnap := s.nextSnap.insert id n
                   snaps := s.snaps.insert (id.snapshot n) ⟨⟨id.snapshot n, id, name, v.meta_.sizeBytes⟩, v.body⟩ })) ∨
    ((MemVolumeStore.validateName name = .ok () → s.rows.lookup id = none) ∧
      ∃ e, s.createSnapshot id name = (.error e, s)) := by
  unfold MemVolumeStore.createSnapshot
  cases hname : MemVolumeStore.validateName name with
  | error e => exact .inr ⟨nofun, e, rfl⟩
  | ok u =>
    cases hv : s.rows.lookup id with
    | none => exact .inr ⟨fun _ => rfl, _, rfl⟩
    | some v =>
      obtain ⟨-, hlen, -⟩ := h.volume id v hv
      refine .inl ⟨v, rfl, rfl, ?_⟩
      have hsize : UInt64.ofNat v.body.length = v.meta_.sizeBytes := by rw [hlen, UInt64.ofNat_toNat]
      simp only [hsize]
      rfl

theorem Logged.createSnapshot (h : Logged s log) {id : VolumeId} {v : MemVolume} (hv : s.rows.lookup id = some v)
    (name : String) {n : UInt64} (hn : n = satAdd64 ((s.nextSnap.lookup id).getD 0) 1) :
    Logged { s with nextSnap := s.nextSnap.insert id n
                    snaps := s.snaps.insert (id.snapshot n) ⟨⟨id.snapshot n, id, name, v.meta_.sizeBytes⟩, v.body⟩ }
      ((.createSnapshot id name, .ok (.snapshot ⟨id.snapshot n, id, name, v.meta_.sizeBytes⟩)) :: log) := by
  obtain ⟨-, hlen, -, hmem, -⟩ := h.volume id v hv
  constructor
  · exact h.body
  · exact h.volume
  · intro k sn hsn
    have htaken : VolumeSpec.taken (VolumeLog.spec ((.createSnapshot id name,
        .ok (.snapshot ⟨id.snapshot n, id, name, v.meta_.sizeBytes⟩)) :: log)) k =
        if k = id.snapshot n then some (id, v.body) else log.spec.taken k := by
      change Function.update log.spec.taken (id.snapshot n) ((log.spec.contents id).map _) k = _
      rw [Function.update_apply, h.body id, hv]
      rfl
    rw [htaken]
    rw [Assoc.lookup_insert_ite] at hsn
    split at hsn
    · rename_i heq
      obtain rfl := Option.some.inj hsn
      exact ⟨heq.symm, if_pos heq, ⟨n, heq⟩, hlen, v, hv, rfl⟩
    · rename_i hne
      rw [if_neg hne]
      exact h.snapshot k sn hsn
  · intro k
    change Function.update log.spec.kept (id.snapshot n) (some id) k = _
    rw [Function.update_apply, Assoc.lookup_insert_ite]
    split
    · rfl
    · exact h.kept k
  · exact h.volumeIds
  · exact h.issued
  · intro k hk
    rcases List.mem_cons.1 hk with rfl | hk
    · refine ⟨id, n, rfl, hmem, fun _ => ?_⟩
      rw [AList.lookup_insert]
      exact Nat.le_refl _
    · obtain ⟨id', n', hkid, hmem', hle⟩ := h.issuedSnapshots k hk
      refine ⟨id', n', hkid, hmem', fun hsome => ?_⟩
      have hle' := hle hsome
      rw [Assoc.lookup_insert_ite]
      split
      · rename_i heq
        rw [heq] at hle'
        have hmax := le_u64Max n'
        rw [Option.getD_some, hn, toNat_satAdd64]
        omega
      · exact hle'
  · intro id' n' hn'
    rw [Assoc.lookup_insert_ite] at hn'
    split at hn'
    · rename_i heq
      obtain rfl := Option.some.inj hn'
      rw [heq]
      exact List.mem_cons_self
    · exact List.mem_cons_of_mem _ (h.counter id' n' hn')

theorem Logged.deleteSnapshot (h : Logged s log) (k : SnapshotId) :
    Logged { s with snaps := s.snaps.erase k } ((.deleteSnapshot k, .ok .done) :: log) := by
  refine ⟨h.body, h.volume, fun k' sn hsn => ?_, fun k' => ?_, h.volumeIds, h.issued, h.issuedSnapshots, h.counter⟩
  · rw [Assoc.lookup_erase_ite] at hsn
    split at hsn
    · cases hsn
    · exact h.snapshot k' sn hsn
  · change Function.update log.spec.kept k none k' = _
    rw [Function.update_apply, Assoc.lookup_erase_ite]
    split
    · rfl
    · exact h.kept k'

/-! ## Which snapshots can be restored -/

/-- No snapshot id was given out twice, and no volume with a snapshot has an owner with an `@`. -/
def Clear (s : MemVolumeStore) (log : VolumeLog) : Prop :=
  log.snapshotIds.Nodup ∧ ∀ k sn v, s.snaps.lookup k = some sn → s.rows.lookup sn.meta_.volume = some v →
    '@' ∉ v.meta_.owner.toList

/-- A call keeps the store beside its log, and its snapshots in order exactly if it takes none that cannot be restored. -/
def Steps (s : MemVolumeStore) (log : VolumeLog) (op : VolumeOp) : Prop :=
  Logged (s.apply op).2 ((op, (s.apply op).1) :: log) ∧
    (Clear s log → (Clear (s.apply op).2 ((op, (s.apply op).1) :: log) ↔ s.SplitsBack op))

theorem steps_quiet (h : Logged s log) {op : VolumeOp} {r : CelResult VolumeReply} (happly : s.apply op = (r, s))
    (hquiet : QuietEntry (op, r)) (hsplits : s.SplitsBack op) : Steps s log op := by
  obtain ⟨h', hids⟩ := h.quiet hquiet
  rw [Steps, happly]
  refine ⟨h', fun hc => iff_of_true ⟨?_, hc.2⟩ hsplits⟩
  rw [hids]
  exact hc.1

/-- Fewer snapshots, of volumes with the owners they had. -/
theorem Clear.of_sub {s' : MemVolumeStore} {log' : VolumeLog} (hc : Clear s log) (hids : log'.snapshotIds = log.snapshotIds)
    (hsnaps : ∀ k sn, s'.snaps.lookup k = some sn → s.snaps.lookup k = some sn)
    (hrows : ∀ k sn v', s'.snaps.lookup k = some sn → s'.rows.lookup sn.meta_.volume = some v' →
      ∃ v, s.rows.lookup sn.meta_.volume = some v ∧ v.meta_.owner = v'.meta_.owner) : Clear s' log' := by
  refine ⟨hids ▸ hc.1, fun k sn v' hsn hv' => ?_⟩
  obtain ⟨v, hv, howner⟩ := hrows k sn v' hsn hv'
  rw [← howner]
  exact hc.2 k sn v (hsnaps k sn hsn) hv

theorem Clear.setBody {log' : VolumeLog} (hc : Clear s log) (hids : log'.snapshotIds = log.snapshotIds) {id : VolumeId}
    {v : MemVolume} (hv : s.rows.lookup id = some v) (body : List UInt8) :
    Clear { s with rows := s.rows.insert id { v with body } } log' := by
  refine hc.of_sub hids (fun k sn hsn => hsn) (fun k sn v' hsn hv' => ?_)
  rw [Assoc.lookup_insert_ite] at hv'
  split at hv'
  · rename_i heq
    obtain rfl := Option.some.inj hv'
    exact ⟨v, heq ▸ hv, rfl⟩
  · exact ⟨v', hv', rfl⟩

theorem steps_create (h : Logged s log) (owner name : String) (size : UInt64) (hroom : s.next.toNat < u64Max) :
    Steps s log (.create owner name size) := by
  by_cases hok : CreateOk name size
  · refine ⟨h.create owner hok hroom, fun hc => iff_of_true ?_ trivial⟩
    have hnew := h.fresh_id owner hroom
    rw [MemVolumeStore.apply, s.create_valid owner hok]
    refine hc.of_sub rfl (fun k sn hsn => hsn) (fun k sn v' hsn hv' => ?_)
    obtain ⟨-, -, -, -, v, hv, -⟩ := h.snapshot k sn hsn
    have hne : sn.meta_.volume ≠ MemVolumeStore.volumeId owner (satAdd64 s.next 1) :=
      fun heq => hnew (heq ▸ (h.volume _ v hv).2.2.2.1)
    rw [Assoc.lookup_insert_ite, if_neg hne] at hv'
    exact ⟨v', hv', rfl⟩
  · obtain ⟨e, he⟩ := s.create_invalid owner hok
    refine steps_quiet h ?_ (quiet_error _ e) trivial
    rw [MemVolumeStore.apply, he]
    rfl

theorem steps_delete (h : Logged s log) (id : VolumeId) : Steps s log (.delete id) := by
  refine ⟨h.delete id, fun hc => iff_of_true ?_ trivial⟩
  refine hc.of_sub rfl (fun k sn hsn => (s.delete_snaps.1 hsn).1) (fun k sn v' hsn hv' => ?_)
  have hv : (s.delete id).2.rows.lookup sn.meta_.volume = some v' := hv'
  simp only [MemVolumeStore.delete, Assoc.lookup_erase_ite, if_neg (s.delete_snaps.1 hsn).2] at hv
  exact ⟨v', hv, rfl⟩

theorem steps_write (h : Logged s log) (id : VolumeId) (offset : UInt64) (data : List UInt8) :
    Steps s log (.write id offset data) := by
  rcases h.write_cases id offset data with ⟨v, hv, hin, hwrite⟩ | ⟨-, e, he⟩
  · have happly : s.apply (.write id offset data) =
        (.ok .done, { s with rows := s.rows.insert id { v with body := splice offset.toNat data v.body } }) := by
      rw [MemVolumeStore.apply, hwrite]
      rfl
    rw [Steps, happly]
    exact ⟨h.write hv hin, fun hc => iff_of_true (hc.setBody rfl hv _) trivial⟩
  · refine steps_quiet h ?_ (quiet_error _ e) trivial
    rw [MemVolumeStore.apply, he]
    rfl

theorem steps_restoreSnapshot (h : Logged s log) (k : SnapshotId) : Steps s log (.restoreSnapshot k) := by
  have herror : ∀ e, s.restoreSnapshot k = (.error e, s) → Steps s log (.restoreSnapshot k) := by
    intro e he
    refine steps_quiet h ?_ (quiet_error _ e) trivial
    rw [MemVolumeStore.apply, he]
    rfl
  cases hsn : s.snaps.lookup k with
  | none => exact herror _ (by simp only [MemVolumeStore.restoreSnapshot, hsn]; rfl)
  | some sn =>
    obtain ⟨-, -, -, -, v, hv, -⟩ := h.snapshot k sn hsn
    rcases h.restore_cases hsn hv with ⟨-, hrestore⟩ | ⟨-, e, he⟩
    · have happly : s.apply (.restoreSnapshot k) =
          (.ok .done, { s with rows := s.rows.insert sn.meta_.volume { v with body := sn.body } }) := by
        rw [MemVolumeStore.apply, hrestore]
        rfl
      rw [Steps, happly]
      exact ⟨h.restore hsn hv, fun hc => iff_of_true (hc.setBody rfl hv _) trivial⟩
    · exact herror e he

theorem steps_deleteSnapshot (h : Logged s log) (k : SnapshotId) : Steps s log (.deleteSnapshot k) := by
  refine ⟨h.deleteSnapshot k, fun hc => iff_of_true ?_ trivial⟩
  refine hc.of_sub rfl (fun k' sn hsn => ?_) (fun k' sn v' _ hv' => ⟨v', hv', rfl⟩)
  have hsn' : (s.snaps.erase k).lookup k' = some sn := hsn
  rw [Assoc.lookup_erase_ite] at hsn'
  split at hsn'
  · cases hsn'
  · exact hsn'

/-- The next counter of a volume is one that was not given out, unless there is none left. -/
theorem Logged.fresh_snapshot (h : Logged s log) {id : VolumeId} {v : MemVolume} (hv : s.rows.lookup id = some v) :
    id.snapshot (satAdd64 ((s.nextSnap.lookup id).getD 0) 1) ∉ log.snapshotIds ↔
      ((s.nextSnap.lookup id).getD 0).toNat < u64Max := by
  have hmax := le_u64Max ((s.nextSnap.lookup id).getD 0)
  constructor
  · intro hnew
    by_contra hfull
    refine hnew ?_
    have hsat : satAdd64 ((s.nextSnap.lookup id).getD 0) 1 = (s.nextSnap.lookup id).getD 0 := by
      apply UInt64.toNat_inj.1
      rw [toNat_satAdd64]
      omega
    rw [hsat]
    cases hn : s.nextSnap.lookup id with
    | none =>
      rw [hn] at hfull
      exact absurd (by decide) hfull
    | some n => exact h.counter id n hn
  · intro hroom hmem
    obtain ⟨id', n, hk, -, hle⟩ := h.issuedSnapshots _ hmem
    obtain ⟨rfl, hn⟩ := VolumeId.snapshot_inj hk
    have hle' := hle (by rw [hv]; rfl)
    rw [← hn, toNat_satAdd64] at hle'
    simp at hle'
    omega

theorem steps_createSnapshot (h : Logged s log) (id : VolumeId) (name : String) :
    Steps s log (.createSnapshot id name) := by
  rcases h.createSnapshot_cases id name with ⟨v, hname, hv, hcreate⟩ | ⟨hnone, e, he⟩
  · generalize hn : satAdd64 ((s.nextSnap.lookup id).getD 0) 1 = n at hcreate
    have happly : s.apply (.createSnapshot id name) = (.ok (.snapshot ⟨id.snapshot n, id, name, v.meta_.sizeBytes⟩),
        { s with nextSnap := s.nextSnap.insert id n
                 snaps := s.snaps.insert (id.snapshot n) ⟨⟨id.snapshot n, id, name, v.meta_.sizeBytes⟩, v.body⟩ }) := by
      rw [MemVolumeStore.apply, hcreate]
      rfl
    have hfresh := h.fresh_snapshot hv
    rw [hn] at hfresh
    rw [Steps, happly]
    refine ⟨h.createSnapshot hv name hn.symm, fun hc => ?_⟩
    constructor
    · rintro ⟨hnodup, hat⟩ - v' hv'
      obtain rfl := Option.some.inj (hv.symm.trans hv')
      exact ⟨hat _ _ v (AList.lookup_insert _) hv, hfresh.1 (List.nodup_cons.1 hnodup).1⟩
    · intro hsplits
      obtain ⟨hat, hroom⟩ := hsplits hname v hv
      refine ⟨List.nodup_cons.2 ⟨hfresh.2 hroom, hc.1⟩, fun k sn v' hsn hv' => ?_⟩
      rw [Assoc.lookup_insert_ite] at hsn
      split at hsn
      · obtain rfl := Option.some.inj hsn
        obtain rfl := Option.some.inj (hv.symm.trans hv')
        exact hat
      · exact hc.2 k sn v' hsn hv'
  · refine steps_quiet h ?_ (quiet_error _ e) ?_
    · rw [MemVolumeStore.apply, he]
      rfl
    · intro hname v hv
      cases (hnone hname).symm.trans hv

/-- **One call.** -/
theorem steps (h : Logged s log) {op : VolumeOp} (hroom : op.isCreate = true → s.next.toNat < u64Max) :
    Steps s log op := by
  cases op with
  | create owner name size => exact steps_create h owner name size (hroom rfl)
  | delete id => exact steps_delete h id
  | list | get id | listSnapshots volume => exact steps_quiet h rfl ⟨fun _ => rfl, rfl, rfl⟩ trivial
  | read id offset len =>
    refine steps_quiet h rfl ⟨fun _ => ?_, ?_, ?_⟩ trivial
    · cases s.read id offset len <;> rfl
    · cases s.read id offset len <;> rfl
    · cases s.read id offset len <;> rfl
  | write id offset data => exact steps_write h id offset data
  | createSnapshot id name => exact steps_createSnapshot h id name
  | deleteSnapshot k => exact steps_deleteSnapshot h k
  | restoreSnapshot k => exact steps_restoreSnapshot h k

/-! ## What follows -/

theorem MemVolumeStore.mem_list {m : VolumeMeta} : m ∈ s.list ↔ ∃ id v, s.rows.lookup id = some v ∧ v.meta_ = m := by
  simp only [MemVolumeStore.list, List.mem_map, Assoc.mem_sorted_iff]
  constructor
  · rintro ⟨v, ⟨id, hv⟩, rfl⟩
    exact ⟨id, v, hv, rfl⟩
  · rintro ⟨id, v, hv, rfl⟩
    exact ⟨v, ⟨id, hv⟩, rfl⟩

theorem MemVolumeStore.mem_listSnapshots {m : SnapshotMeta} :
    m ∈ s.listSnapshots none ↔ ∃ k sn, s.snaps.lookup k = some sn ∧ sn.meta_ = m := by
  simp only [MemVolumeStore.listSnapshots, Option.all_none, List.filter_true, List.mem_map,
    Assoc.mem_sorted_iff]
  constructor
  · rintro ⟨sn, ⟨k, hsn⟩, rfl⟩
    exact ⟨k, sn, hsn, rfl⟩
  · rintro ⟨k, sn, hsn, rfl⟩
    exact ⟨sn, ⟨k, hsn⟩, rfl⟩

theorem Logged.read_in (h : Logged s log) {id : VolumeId} {offset : UInt64} {len : Nat} {body : List UInt8}
    (hbody : log.spec.contents id = some body) (hin : offset.toNat + len ≤ body.length) :
    s.read id offset len = .ok ((body.drop offset.toNat).take len) := by
  rcases h.range id offset len "read" with ⟨v, hv, -, hrange⟩ | ⟨hout, -⟩
  · rw [h.body id, hv] at hbody
    obtain rfl := Option.some.inj hbody
    simp only [MemVolumeStore.read, hrange]
  · exact absurd hin (Nat.not_le.2 (hout body hbody))

theorem Logged.clean (h : Logged s log) : s.integrityCheck.isClean = true := by
  simp only [IntegrityReport.isClean, MemVolumeStore.integrityCheck, List.isEmpty_iff, List.append_eq_nil_iff,
    List.flatMap_eq_nil_iff]
  constructor
  · intro m hm
    obtain ⟨id, v, hv, rfl⟩ := MemVolumeStore.mem_list.1 hm
    obtain ⟨rfl, hlen, hsize, -⟩ := h.volume id v hv
    have hpos : 0 < v.meta_.sizeBytes := UInt64.pos_iff_ne_zero.2 hsize
    have hlast : (v.meta_.sizeBytes - 1).toNat + 1 ≤ v.body.length := by
      have hnat : v.meta_.sizeBytes.toNat ≠ 0 := fun h0 => hsize (UInt64.toNat_inj.1 h0)
      have hle : (1 : UInt64) ≤ v.meta_.sizeBytes := UInt64.le_iff_toNat_le.2 (Nat.pos_of_ne_zero hnat)
      rw [hlen, UInt64.toNat_sub_of_le _ _ hle]
      simp
      omega
    have hbody : log.spec.contents v.meta_.id = some v.body := by
      rw [h.body, hv]
      rfl
    have hread := h.read_in hbody hlast
    simp only [MemVolumeStore.checkVolume, gt_iff_lt, if_pos hpos, hread]
  · intro m hm
    obtain ⟨k, sn, hsn, rfl⟩ := MemVolumeStore.mem_listSnapshots.1 hm
    obtain ⟨-, -, -, -, v, hv, hsize⟩ := h.snapshot k sn hsn
    simp only [MemVolumeStore.checkSnapshot, MemVolumeStore.get, hv, Option.map_some, hsize, ne_eq, not_true_eq_false,
      if_false]

/-- **All of it comes down to the ids of the snapshots.** -/
theorem Logged.faithful_iff (h : Logged s log) : Faithful s log ↔ Clear s log := by
  constructor
  · intro hf
    refine ⟨hf.snapshotIds, fun k sn v hsn hv => ?_⟩
    obtain ⟨body, -, hok⟩ := hf.restore k sn v hsn hv
    rcases h.restore_cases hsn hv with ⟨hat, -⟩ | ⟨-, e, he⟩
    · exact hat
    · rw [hok] at he
      cases congrArg Prod.fst he
  · intro hc
    constructor
    · exact fun id => (h.body id).symm
    · exact fun id v hv => (h.volume id v hv).2.1
    · exact fun id offset len body => h.read_in
    · intro id offset len hout
      rcases h.range id offset len "read" with ⟨v, hv, hin, -⟩ | ⟨-, e, he⟩
      · exact absurd hin (Nat.not_le.2 (hout v.body (by rw [h.body, hv]; rfl)))
      · exact ⟨e, by simp only [MemVolumeStore.read, he]⟩
    · intro id offset data body hbody hin
      rcases h.write_cases id offset data with ⟨v, -, -, hwrite⟩ | ⟨hout, -⟩
      · rw [hwrite]
      · exact absurd hin (Nat.not_le.2 (hout body hbody))
    · intro id offset data hout
      rcases h.write_cases id offset data with ⟨v, hv, hin, -⟩ | ⟨-, he⟩
      · exact absurd hin (Nat.not_le.2 (hout v.body (by rw [h.body, hv]; rfl)))
      · exact he
    · intro k sn v hsn hv
      rcases h.restore_cases hsn hv with ⟨-, hok⟩ | ⟨hat, -⟩
      · exact ⟨sn.body, (h.snapshot k sn hsn).2.1, hok⟩
      · exact absurd hat (hc.2 k sn v hsn hv)
    · exact fun k => (h.kept k).symm
    · exact fun id id' => Assoc.lookup_erase_ite _ _ _
    · exact fun id k sn => s.delete_snaps
    · exact h.volumeIds
    · exact hc.1
    · exact h.clean

end Step

/-! ## Whole runs -/

theorem MemVolumeStore.next_le (s : MemVolumeStore) (op : VolumeOp) :
    (s.apply op).2.next.toNat ≤ s.next.toNat + if op.isCreate then 1 else 0 := by
  have hsame : ∀ {t : MemVolumeStore}, t.next = s.next → t.next.toNat ≤ s.next.toNat + if op.isCreate then 1 else 0 := by
    intro t ht
    rw [ht]
    exact Nat.le_add_right _ _
  cases op with
  | create owner name size =>
    by_cases hok : CreateOk name size
    · rw [apply, s.create_valid owner hok]
      simp only [toNat_satAdd64, VolumeOp.isCreate, if_true]
      exact Nat.min_le_left _ _
    · obtain ⟨e, he⟩ := s.create_invalid owner hok
      refine hsame ?_
      rw [apply, he]
  | delete id | list | get id | read id offset len | listSnapshots volume | deleteSnapshot k => exact hsame rfl
  | write id offset data =>
    refine hsame ?_
    rw [apply, write]
    split <;> rfl
  | createSnapshot id name =>
    refine hsame ?_
    simp only [apply, createSnapshot]
    split
    · rfl
    · split <;> rfl
  | restoreSnapshot k =>
    refine hsame ?_
    simp only [apply, restoreSnapshot]
    split
    · rfl
    · split
      · rfl
      · split
        · rfl
        · split <;> rfl

/-- With fewer than `2 ^ 64` creates no counter is given out twice. -/
theorem room_along (ops : List VolumeOp) (s : MemVolumeStore × VolumeLog)
    (h : s.1.next.toNat + ops.countP VolumeOp.isCreate ≤ u64Max) :
    Along MemVolumeStore.logged (fun s op => op.isCreate = true → s.1.next.toNat < u64Max) s ops := by
  induction ops generalizing s with
  | nil => trivial
  | cons op ops ih =>
    have hnext : (MemVolumeStore.logged s op).2.1.next.toNat ≤ _ := s.1.next_le op
    rw [List.countP_cons] at h
    refine ⟨fun hcreate => ?_, ih _ ?_⟩
    · rw [if_pos hcreate] at h
      omega
    · omega

theorem new_logged : Logged .new [] := by
  constructor
  · exact fun id => rfl
  · exact fun id v hv => by cases hv
  · exact fun k sn hsn => by cases hsn
  · exact fun k => rfl
  · exact List.nodup_nil
  · exact fun id hid => by cases hid
  · exact fun k hk => by cases hk
  · exact fun id n hn => by cases hn

/-- **In every state of a run with fewer than `2 ^ 64` creates the store does what its log says, exactly if no snapshot is
taken of a volume whose owner has an `@` in its name** (nor one for which its volume has no counter left). -/
theorem mem_volume_faithful_iff (ops : List VolumeOp) (h : ops.countP VolumeOp.isCreate < 2 ^ 64) :
    (∀ s ∈ states MemVolumeStore.logged (.new, []) ops, Faithful s.1 s.2) ↔
      Along MemVolumeStore.logged (fun s op => s.1.SplitsBack op) (.new, []) ops := by
  have hroom := room_along ops (.new, []) (by
    change 0 + _ ≤ u64Max
    unfold u64Max
    omega)
  refine states_iff_along_of (I := fun s => Logged s.1 s.2) ?_ ?_ new_logged ?_ hroom
  · exact fun s op h hroom => (steps h hroom).1
  · intro s op h hf hroom
    obtain ⟨h', hclear⟩ := steps h hroom
    exact h'.faithful_iff.trans (hclear (h.faithful_iff.1 hf))
  · exact new_logged.faithful_iff.2 ⟨List.nodup_nil, fun k sn v hsn => by cases hsn⟩

/-- A snapshot is taken between two writes and restored. -/
def restoreRun : List VolumeOp :=
  [.create "n1" "data" 4, .write ⟨"n1/v1"⟩ 1 [7, 8], .createSnapshot ⟨"n1/v1"⟩ "s", .write ⟨"n1/v1"⟩ 0 [1, 2, 3, 4],
    .restoreSnapshot ⟨"n1/v1@s1"⟩]

theorem restore_run_faithful :
    restoreRun.countP VolumeOp.isCreate < 2 ^ 64 ∧
    (VolumeLog.spec (run MemVolumeStore.logged (.new, []) restoreRun).2).contents ⟨"n1/v1"⟩ = some [0, 7, 8, 0] ∧
    ∀ s ∈ states MemVolumeStore.logged (.new, []) restoreRun, Faithful s.1 s.2 :=
  ⟨by decide, by decide +kernel, (mem_volume_faithful_iff restoreRun (by decide)).2 (by decide +kernel)⟩

/-- **A snapshot of a volume of `node@site` cannot be restored.** -/
theorem snapshot_at_not_restored :
    ∃ ops : List VolumeOp, ops.countP VolumeOp.isCreate < 2 ^ 64 ∧
      ∃ s ∈ states MemVolumeStore.logged (.new, []) ops,
        (s.1.restoreSnapshot ⟨"node@site/v1@s1"⟩).1 = .error (.invalid "restore: malformed snapshot id") ∧
        ¬ Faithful s.1 s.2 := by
  have hrefused : ((run MemVolumeStore.logged (.new, [])
      [.create "node@site" "data" 1, .createSnapshot ⟨"node@site/v1"⟩ "s"]).1.restoreSnapshot ⟨"node@site/v1@s1"⟩).1 =
      .error (.invalid "restore: malformed snapshot id") := by
    decide +kernel
  refine ⟨_, by decide, _, run_mem_states _ _, hrefused, fun h => ?_⟩
  obtain ⟨body, -, hok⟩ := h.restore ⟨"node@site/v1@s1"⟩
    ⟨⟨⟨"node@site/v1@s1"⟩, ⟨"node@site/v1"⟩, "s", 1⟩, [0]⟩ ⟨⟨⟨"node@site/v1"⟩, "node@site", "data", 1⟩, [0]⟩
    (by decide +kernel) (by decide +kernel)
  cases hrefused.symm.trans (congrArg Prod.fst hok)

end Celium
