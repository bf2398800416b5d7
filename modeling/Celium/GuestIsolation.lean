import Celium.Lib.Runs
import Celium.GuestMemory
import Mathlib.Data.Nat.ModEq
/-!
# GuestIsolation — every guest has one page, which is its own

VMs are made from one provider, by creates that succeed and creates that fail anywhere, while guests store to any address
and the processor writes to their VMCSs.  A guest may store at any time, launched or not, which is more than the processor
lets it.  Every entry of the tables grants every access, so what the processor lets through is what `translate` finds.
-/
namespace Celium

open Ept Walk Runs

/-- A guest-physical address: what four levels of tables translate. -/
structure GuestAddr where
  addr : Nat
  lt : addr < 2 ^ 48
deriving DecidableEq, Repr

namespace GuestAddr

variable (gpa : GuestAddr)

def phys : PhysAddr := ⟨gpa.addr, Nat.lt_trans gpa.lt (by decide)⟩

def offset : Offset := ⟨gpa.addr % pageSize, Nat.mod_lt _ (by decide)⟩

/-- In the page that `install_first_guest` maps. -/
def InPage : Prop := gpa.addr / pageSize = 1

instance : Decidable gpa.InPage := inferInstanceAs (Decidable (_ = _))

end GuestAddr

def frameOf (a : PhysAddr) : PhysAddr :=
  ⟨a.addr / pageSize * pageSize, Nat.lt_of_le_of_lt (Nat.div_mul_le_self _ _) a.lt⟩

def offsetOf (a : PhysAddr) : Offset := ⟨a.addr % pageSize, Nat.mod_lt _ (by decide)⟩

/-- The kernel's VMs: the table of the manager, what each `Vm` keeps of its set-up, and the frames. -/
structure GuestHost (σ : Type) where
  manager : Manager
  tables : Fin maxVms → Option VmTables
  frames : σ

inductive GuestMove where
  | create (steps : VmxSteps) (req : CreateVmRequest)
  | start (hw : Hardware) (id : UInt32)
  | stop (id : UInt32)
  | delete (id : UInt32)
  /-- The guest of a slot stores a byte. -/
  | guestStore (i : Fin maxVms) (gpa : GuestAddr) (b : UInt8)
  /-- The processor writes to the VMCS of a slot. -/
  | vmcsStore (i : Fin maxVms) (j : Index) (v : UInt64)
deriving DecidableEq

inductive GuestAnswer where
  | created (r : HyperResult (Fin maxVms))
  | done (r : HyperResult Unit)
  /-- Whether the store went through; else it is an EPT violation. -/
  | stored (through : Bool)
deriving DecidableEq

namespace GuestHost

variable {σ : Type} (P : FrameProvider σ)

/-- No VM yet. -/
def boot (s : σ) : GuestHost σ := ⟨Manager.init, fun _ => none, s⟩

variable (h : GuestHost σ)

/-- `create_vm_with`. -/
def createVm (steps : VmxSteps) (req : CreateVmRequest) : HyperResult (Fin maxVms) × GuestHost σ :=
  match h.manager.freeSlot with
  | none => (.error (.exhausted "manager: VM table full"), h)
  | some i =>
    match buildVm P h.frames steps req.blob with
    | (.error e, s) =>
      (.error e, ⟨{ h.manager with occupied := Function.update h.manager.occupied i true }, h.tables, s⟩)
    | (.ok t, s) => (.ok i, ⟨h.manager.allocate i req, Function.update h.tables i ((h.tables i).or (some t)), s⟩)

/-- Where a guest-physical address is, through the tables of a slot. -/
def translate (i : Fin maxVms) (gpa : GuestAddr) : Option PhysAddr :=
  (h.tables i).bind fun t => ((Ept.ofEptp t.eptp).translate P h.frames gpa.phys).toOption

/-- A load by the guest of a slot; an EPT violation gives nothing. -/
def load (i : Fin maxVms) (gpa : GuestAddr) : Option UInt8 :=
  (h.translate P i gpa).map fun hpa => peek P h.frames (frameOf hpa) (offsetOf hpa)

def step (h : GuestHost σ) : GuestMove → GuestAnswer × GuestHost σ
  | .create steps req => (.created (h.createVm P steps req).1, (h.createVm P steps req).2)
  | .start hw id => (.done (h.manager.startVm hw id).1, { h with manager := (h.manager.startVm hw id).2 })
  | .stop id => (.done (h.manager.stopVm id).1, { h with manager := (h.manager.stopVm id).2 })
  | .delete id =>
    (.done ((h.manager.deleteVm id).1.map fun _ => ()), { h with manager := (h.manager.deleteVm id).2 })
  | .guestStore i gpa b =>
    match h.translate P i gpa with
    | none => (.stored false, h)
    | some hpa => (.stored true, { h with frames := poke P h.frames (frameOf hpa) (offsetOf hpa) b })
  | .vmcsStore i j v =>
    match h.tables i with
    | none => (.done (.ok ()), h)
    | some t => (.done (.ok ()), { h with frames := P.writeEntry h.frames t.vmcsPa j v.toNat })

/-- It is the manager's own, with the tables of the VM kept. -/
theorem createVmWith_eq (steps : VmxSteps) (req : CreateVmRequest) :
    h.manager.createVmWith P h.frames steps req =
      ((h.createVm P steps req).1, (h.createVm P steps req).2.manager, (h.createVm P steps req).2.frames) := by
  unfold createVm Manager.createVmWith
  cases h.manager.freeSlot with
  | none => rfl
  | some i =>
    rcases buildVm P h.frames steps req.blob with ⟨e | t, s'⟩
    · rfl
    · rfl

/-- **The table as `create_vm` leaves it**, where the hardware fails as one of these steps does. -/
theorem createVm_eq (steps : VmxSteps) (req : CreateVmRequest) {hw : Hardware} (hready : h.manager.runtimeReady = true)
    (hhw : hw.create = match (buildVm P h.frames steps req.blob).1 with | .error e => some e | .ok _ => none) :
    h.manager.createVm hw req = ((h.createVm P steps req).1, (h.createVm P steps req).2.manager) := by
  rw [h.manager.createVmWith_eq_createVm P h.frames steps req hready hhw, createVmWith_eq]

end GuestHost

/-- The page of the guest in slot `i`, as its creation and its own stores make it. -/
def ownPage (i : Fin maxVms) (page : Option GuestPage) : GuestMove × GuestAnswer → Option GuestPage
  | (.create _ req, .created (.ok j)) => if j = i then some (blobPage req.blob) else page
  | (.guestStore j gpa b, _) =>
    if j = i ∧ gpa.InPage then page.map fun page => Function.update page gpa.offset b else page
  | _ => page

section Run

variable {σ : Type} {P : FrameProvider σ} {C : P.Contract} {s s' : σ} {t : VmTables} {f : VmFrames} {page : GuestPage}

/-- **The tables of a VM lead to its page, and nowhere else.** -/
theorem Private.translate (h : Private C s t f page) (gpa : GuestAddr) :
    match (Ept.ofEptp t.eptp).translate P s gpa.phys with
    | .ok hpa => gpa.InPage ∧ frameOf hpa = f.page ∧ offsetOf hpa = gpa.offset
    | .error _ => ¬ gpa.InPage := by
  have hleaf := h.leaf (tablePath gpa.phys) (leafIndex gpa.phys) rfl
  have htranslate := translate_leaf (P := P) (Ept.ofEptp t.eptp) s gpa.phys
  have hpage := same_page_iff (a := gpa.phys) (b := guestGpa) gpa.lt (by decide)
  by_cases hin : gpa.InPage
  · rw [if_pos (hpage.2 hin)] at hleaf
    rw [hleaf] at htranslate
    simp only at htranslate
    rw [htranslate]
    have haddr := leafAddr_eq (leafEntry f.page guestFlags) gpa.phys
    rw [leafEntry_addr h.aligned, guestFlags_declared.addr, Nat.or_zero] at haddr
    have hoff : gpa.phys.addr % pageSize < pageSize := Nat.mod_lt _ (by decide)
    have haligned := h.aligned
    generalize leafAddr (leafEntry f.page guestFlags) gpa.phys = hpa at haddr
    refine ⟨hin, ?_, ?_⟩
    · rw [frameOf, PhysAddr.mk.injEq, haddr, Nat.add_div_of_dvd_right (Nat.dvd_of_mod_eq_zero haligned),
        Nat.div_eq_of_lt hoff, Nat.add_zero]
      exact Nat.div_mul_cancel (Nat.dvd_of_mod_eq_zero haligned)
    · rw [offsetOf, GuestAddr.offset, Fin.mk.injEq, haddr, Nat.add_mod, haligned, Nat.zero_add, Nat.mod_mod, Nat.mod_mod]
      rfl
  · rw [if_neg (fun heq => hin (hpage.1 heq))] at hleaf
    rw [hleaf] at htranslate
    obtain ⟨msg, hmsg⟩ := htranslate
    rw [hmsg]
    exact hin

variable {h : GuestHost σ} {i : Fin maxVms} {gpa : GuestAddr}

theorem translate_in (hp : Private C h.frames t f page) (ht : h.tables i = some t) (hin : gpa.InPage) :
    ∃ hpa, h.translate P i gpa = some hpa ∧ frameOf hpa = f.page ∧ offsetOf hpa = gpa.offset := by
  have htranslate := hp.translate gpa
  rw [GuestHost.translate, ht, Option.bind_some]
  split at htranslate
  · rename_i hpa hok
    rw [hok]
    exact ⟨hpa, rfl, htranslate.2⟩
  · exact absurd hin htranslate

theorem translate_out (hp : Private C h.frames t f page) (ht : h.tables i = some t) (hout : ¬ gpa.InPage) :
    h.translate P i gpa = none := by
  have htranslate := hp.translate gpa
  rw [GuestHost.translate, ht, Option.bind_some]
  split at htranslate
  · exact absurd htranslate.1 hout
  · rename_i e herr
    rw [herr]
    rfl

/-- The VMs have different frames, which hold what is to be there after `past`. -/
structure Guests (C : P.Contract) (h : GuestHost σ) (past : List (GuestMove × GuestAnswer)) : Prop where
  valid : C.valid h.frames
  occupied : ∀ i, (h.tables i).isSome → h.manager.occupied i = true
  views : ∃ f : Fin maxVms → VmFrames,
    (∀ i, Option.Rel (fun t page => Private C h.frames t (f i) page) (h.tables i) (past.foldl (ownPage i) none)) ∧
    ∀ i j, i ≠ j → (h.tables i).isSome → (h.tables j).isSome → ∀ a, (f i).Has a → ¬ (f j).Has a

theorem rel_mono {α β : Type} {r r' : α → β → Prop} {o : Option α} {o' : Option β} (h : Option.Rel r o o')
    (hr : ∀ a b, o = some a → r a b → r' a b) : Option.Rel r' o o' := by
  cases h with
  | none => exact .none
  | some hab => exact .some (hr _ _ rfl hab)

theorem Private.keep (hp : Private C s t f page) (hs : (keeping C s).valid s') : Private C s' t f page :=
  hp.congr (fun a ha => (hs.2 a ha).1) fun a ha => (hs.2 a (hp.owned a ha)).2

variable {past : List (GuestMove × GuestAnswer)}

/-- A step that leaves every frame and every page alone. -/
theorem Guests.idle (hguests : Guests C h past) {m : Manager} {e : GuestMove × GuestAnswer}
    (hocc : ∀ i, h.manager.occupied i = true → m.occupied i = true)
    (he : ∀ i, ownPage i (past.foldl (ownPage i) none) e = past.foldl (ownPage i) none)
    (hs : (keeping C h.frames).valid s') : Guests C ⟨m, h.tables, s'⟩ (past ++ [e]) := by
  obtain ⟨f, hviews, hapart⟩ := hguests.views
  refine ⟨hs.1, fun i hi => hocc i (hguests.occupied i hi), f, fun i => ?_, hapart⟩
  rw [List.foldl_append, List.foldl_cons, List.foldl_nil, he]
  exact rel_mono (hviews i) fun _ _ _ hp => hp.keep hs

/-- A VM with new frames in a slot without one. -/
theorem Guests.add (hguests : Guests C h past) {m : Manager} {e : GuestMove × GuestAnswer} {g : VmFrames}
    (hnone : h.tables i = none)
    (hocc : ∀ j, h.manager.occupied j = true → m.occupied j = true) (hi : m.occupied i = true)
    (hself : ∀ page', ownPage i page' e = some page) (hother : ∀ j page', j ≠ i → ownPage j page' e = page')
    (hs : (keeping C h.frames).valid s') (hg : Private C s' t g page) (hfresh : ∀ a, g.Has a → ¬ C.owned h.frames a) :
    Guests C ⟨m, Function.update h.tables i (some t), s'⟩ (past ++ [e]) := by
  obtain ⟨f, hviews, hapart⟩ := hguests.views
  have hold : ∀ j, (h.tables j).isSome → ∀ a, (f j).Has a → C.owned h.frames a := by
    intro j hj a ha
    obtain ⟨t', ht'⟩ := Option.isSome_iff_exists.1 hj
    have hv := hviews j
    rw [ht'] at hv
    generalize past.foldl (ownPage j) none = o at hv
    cases hv with
    | some hp => exact hp.owned a ha
  refine ⟨hs.1, fun j hj => ?_, Function.update f i g, fun j => ?_, fun j k hjk hj hk a ha => ?_⟩
  · change (Function.update h.tables i (some t) j).isSome at hj
    by_cases hji : j = i
    · rw [hji]
      exact hi
    · rw [Function.update_of_ne hji] at hj
      exact hocc j (hguests.occupied j hj)
  · rw [List.foldl_append, List.foldl_cons, List.foldl_nil]
    change Option.Rel _ (Function.update h.tables i (some t) j) _
    by_cases hji : j = i
    · subst hji
      rw [hself, Function.update_self, Function.update_self]
      exact .some hg
    · rw [hother j _ hji, Function.update_of_ne hji, Function.update_of_ne hji]
      exact rel_mono (hviews j) fun _ _ _ hp => hp.keep hs
  · change (Function.update h.tables i (some t) j).isSome at hj
    change (Function.update h.tables i (some t) k).isSome at hk
    by_cases hji : j = i
    · subst hji
      rw [Function.update_of_ne (Ne.symm hjk)] at hk ⊢
      rw [Function.update_self] at ha
      exact fun hb => hfresh a ha (hold k hk a hb)
    · rw [Function.update_of_ne hji] at hj ha
      by_cases hki : k = i
      · subst hki
        rw [Function.update_self]
        exact fun hb => hfresh a hb (hold j hj a ha)
      · rw [Function.update_of_ne hki] at hk ⊢
        exact hapart j k hjk hj hk a ha

theorem Guests.create (hguests : Guests C h past) (steps : VmxSteps) (req : CreateVmRequest) :
    Guests C (h.createVm P steps req).2 (past ++ [(.create steps req, .created (h.createVm P steps req).1)]) := by
  have hgrow : ∀ i j, h.manager.occupied j = true → Function.update h.manager.occupied i true j = true := by
    intro i j hj
    rw [Function.update_apply]
    split
    · rfl
    · exact hj
  unfold GuestHost.createVm
  split
  · exact hguests.idle (fun _ hi => hi) (fun _ => rfl) (keeping_self hguests.valid)
  rename_i i hfree
  have hvacant : h.manager.occupied i = false := by simpa using List.find?_some hfree
  have hnone : h.tables i = none := by
    by_contra hsome
    have := hguests.occupied i (Option.isSome_iff_ne_none.2 hsome)
    rw [hvacant] at this
    cases this
  split
  · rename_i e s' hbuild
    exact hguests.idle (hgrow i) (fun _ => rfl) (buildVm_spec hguests.valid hbuild).1
  · rename_i t s' hbuild
    obtain ⟨hkeep, hnew⟩ := buildVm_spec hguests.valid hbuild
    obtain ⟨g, hg, hfresh⟩ := hnew t rfl
    rw [hnone]
    exact hguests.add hnone (hgrow i) (Function.update_self i _ _) (fun _ => if_pos rfl) (fun j _ hj => if_neg (Ne.symm hj))
      hkeep hg hfresh

/-- What one VM does to a frame of its own does not reach the others. -/
theorem Guests.own (hguests : Guests C h past) {f : Fin maxVms → VmFrames}
    (hviews : ∀ i, Option.Rel (fun t page => Private C h.frames t (f i) page) (h.tables i) (past.foldl (ownPage i) none))
    (hapart : ∀ i j, i ≠ j → (h.tables i).isSome → (h.tables j).isSome → ∀ a, (f i).Has a → ¬ (f j).Has a)
    (ht : h.tables i = some t) {a : PhysAddr} (ha : (f i).Has a) (htouch : Touches C h.frames s' a)
    {e : GuestMove × GuestAnswer} (hself : ownPage i (past.foldl (ownPage i) none) e = some page)
    (hp : Private C s' t (f i) page)
    (hother : ∀ j, j ≠ i → ownPage j (past.foldl (ownPage j) none) e = past.foldl (ownPage j) none) :
    Guests C { h with frames := s' } (past ++ [e]) := by
  refine ⟨htouch.valid, hguests.occupied, f, fun j => ?_, hapart⟩
  rw [List.foldl_append, List.foldl_cons, List.foldl_nil]
  change Option.Rel _ (h.tables j) _
  by_cases hji : j = i
  · subst hji
    rw [hself, ht]
    exact .some hp
  · rw [hother j hji]
    refine rel_mono (hviews j) fun t' page' ht' hp' => hp'.congr (fun b => (htouch.owned b).2) fun b hb => ?_
    refine htouch.other b (hp'.owned b hb) ?_
    rintro rfl
    exact hapart j i hji (Option.isSome_iff_exists.2 ⟨t', ht'⟩) (Option.isSome_iff_exists.2 ⟨t, ht⟩) b hb ha

theorem Manager.startVm_occupied (m : Manager) (hw : Hardware) (id : UInt32) : (m.startVm hw id).2.occupied = m.occupied := by
  unfold Manager.startVm
  split
  · rfl
  · split
    · rfl
    · split
      · rfl
      · rfl

theorem Manager.stopVm_occupied (m : Manager) (id : UInt32) : (m.stopVm id).2.occupied = m.occupied := by
  unfold Manager.stopVm
  split
  · rfl
  · split
    · rfl
    · rfl

theorem Manager.deleteVm_occupied (m : Manager) (id : UInt32) : (m.deleteVm id).2.occupied = m.occupied := by
  rcases m.deleteVm_cases id with ⟨e, heq⟩ | ⟨i, vm, -, -, -, heq⟩
  · rw [heq]
  · rw [heq]

theorem Guests.boot (hs : C.valid s) : Guests C (GuestHost.boot s) [] := by
  refine ⟨hs, (fun i hi => by cases hi), (fun _ => ⟨fun _ => False, guestGpa, guestGpa⟩), (fun i => .none), ?_⟩
  intro i j _ hi
  cases hi

theorem Guests.guestStore (hguests : Guests C h past) (i : Fin maxVms) (gpa : GuestAddr) (b : UInt8) :
    Guests C (h.step P (.guestStore i gpa b)).2 (past ++ [(.guestStore i gpa b, (h.step P (.guestStore i gpa b)).1)]) := by
  have hother : ∀ j page answer, j ≠ i → ownPage j page (.guestStore i gpa b, answer) = page :=
    fun j page answer hj => if_neg fun hin => hj hin.1.symm
  obtain ⟨f, hviews, hapart⟩ := hguests.views
  have hi := hviews i
  unfold GuestHost.step
  generalize ht : h.tables i = o at hi
  generalize hpage : past.foldl (ownPage i) none = page at hi
  cases hi with
  | none =>
    have hnone : h.translate P i gpa = none := by
      rw [GuestHost.translate, ht]
      rfl
    simp only [hnone]
    refine hguests.idle (fun _ hocc => hocc) (fun j => ?_) (keeping_self hguests.valid)
    by_cases hj : j = i
    · subst hj
      rw [hpage]
      exact ite_self none
    · exact hother j _ _ hj
  | some hp =>
    rename_i t page
    by_cases hin : gpa.InPage
    · obtain ⟨hpa, htranslate, hframe, hoff⟩ := translate_in hp ht hin
      simp only [htranslate, hframe, hoff]
      refine hguests.own hviews hapart ht (.inr (.inl rfl)) (poke_spec hguests.valid (hp.owned _ (.inr (.inl rfl))) _ b).1 ?_
        (hp.poke hguests.valid gpa.offset b) (fun j hj => hother j _ _ hj)
      rw [hpage]
      exact if_pos ⟨rfl, hin⟩
    · simp only [translate_out hp ht hin]
      exact hguests.idle (fun _ hocc => hocc) (fun j => if_neg fun h => hin h.2) (keeping_self hguests.valid)

theorem Guests.vmcsStore (hguests : Guests C h past) (i : Fin maxVms) (j : Index) (v : UInt64) :
    Guests C (h.step P (.vmcsStore i j v)).2 (past ++ [(.vmcsStore i j v, (h.step P (.vmcsStore i j v)).1)]) := by
  obtain ⟨f, hviews, hapart⟩ := hguests.views
  have hi := hviews i
  unfold GuestHost.step
  generalize ht : h.tables i = o at hi
  generalize hpage : past.foldl (ownPage i) none = page at hi
  cases hi with
  | none =>
    simp only [ht]
    exact hguests.idle (fun _ hocc => hocc) (fun _ => rfl) (keeping_self hguests.valid)
  | some hp =>
    have hv : v.toNat < 2 ^ 64 := v.toNat_lt
    simp only [ht, hp.vmcs]
    exact hguests.own hviews hapart ht (.inr (.inr rfl)) (touches_write hguests.valid (hp.owned _ (.inr (.inr rfl))) j hv) hpage
      (hp.writeVmcs hguests.valid j hv) (fun _ _ => rfl)

theorem Guests.step (hguests : Guests C h past) (a : GuestMove) : Guests C (h.step P a).2 (past ++ [(a, (h.step P a).1)]) := by
  cases a with
  | create steps req => exact hguests.create steps req
  | start hw id =>
    refine hguests.idle (fun i hi => ?_) (fun _ => rfl) (keeping_self hguests.valid)
    rwa [Manager.startVm_occupied]
  | stop id =>
    refine hguests.idle (fun i hi => ?_) (fun _ => rfl) (keeping_self hguests.valid)
    rwa [Manager.stopVm_occupied]
  | delete id =>
    refine hguests.idle (fun i hi => ?_) (fun _ => rfl) (keeping_self hguests.valid)
    rwa [Manager.deleteVm_occupied]
  | guestStore i gpa b => exact hguests.guestStore i gpa b
  | vmcsStore i j v => exact hguests.vmcsStore i j v

theorem Guests.run (hs : C.valid s) (moves : List GuestMove) :
    Guests C (Runs.run (GuestHost.step P) (GuestHost.boot s) moves) (history (GuestHost.step P) (GuestHost.boot s) moves) :=
  inv_history (I := Guests C) (fun _ _ a hguests => hguests.step a) (Guests.boot hs) moves

/-- A load after anything that is simulated. -/
theorem Guests.load (hguests : Guests C h past) (i : Fin maxVms) (gpa : GuestAddr) :
    h.load P i gpa = if gpa.InPage then (past.foldl (ownPage i) none).map (fun page => page gpa.offset) else none := by
  obtain ⟨f, hviews, -⟩ := hguests.views
  have hi := hviews i
  rw [GuestHost.load]
  generalize ht : h.tables i = o at hi
  generalize past.foldl (ownPage i) none = page at hi
  cases hi with
  | none =>
    rw [GuestHost.translate, ht]
    split
    · rfl
    · rfl
  | some hp =>
    by_cases hin : gpa.InPage
    · obtain ⟨hpa, htranslate, hframe, hoff⟩ := translate_in hp ht hin
      rw [htranslate, if_pos hin, Option.map_some, Option.map_some, hframe, hoff, hp.bytes]
    · rw [translate_out hp ht hin, if_neg hin]
      rfl

end Run

/-- **A guest sees one page, its own**: after any run it loads from the page at `0x1000` what its creation and its own
stores put there, and from nowhere else.  No create, no store of another guest and no write to a VMCS makes a difference. -/
theorem GuestHost.guest_sees_own_page {σ : Type} {P : FrameProvider σ} (C : P.Contract) {s : σ} (hs : C.valid s)
    (moves : List GuestMove) (i : Fin maxVms) (gpa : GuestAddr) :
    (run (step P) (boot s) moves).load P i gpa =
      if gpa.InPage then ((history (step P) (boot s) moves).foldl (ownPage i) none).map (fun page => page gpa.offset)
      else none :=
  (Guests.run hs moves).load i gpa

namespace GuestHost

/-- Every instruction succeeds. -/
def fineSteps : VmxSteps := ⟨1, 0, 0, [0], [0]⟩

/-- Two guests, the second of which writes over its first byte. -/
def twoGuests : List GuestMove :=
  [.create fineSteps ⟨[0xF4], 0x1000, 0⟩, .create fineSteps ⟨[0x90], 0x1000, 0⟩,
    .guestStore ⟨1, by decide⟩ ⟨0x1000, by decide⟩ 0xCC]

/-- The first one still has its own. -/
theorem guest_sees_own_page_two :
    (run (step kernelFrames) (boot freshPool) twoGuests).load kernelFrames ⟨0, by decide⟩ ⟨0x1000, by decide⟩ =
      some 0xF4 := by
  have hvalid : kernelContract.valid freshPool := ⟨by decide, fun _ _ _ => rfl⟩
  exact (guest_sees_own_page kernelContract hvalid twoGuests ⟨0, by decide⟩ ⟨0x1000, by decide⟩).trans rfl

end GuestHost

end Celium
