import Celium.VmCreate
/-!
# GuestMemory — what a guest sees of the host's memory

`install_first_guest` copies the blob to a frame and maps the frame at `0x1000`; the VM keeps the EPTP and the address of its
VMCS.  From then on the guest reads and writes its frame through its tables, while other VMs are made from the same provider
and other guests run.
-/
namespace Celium

open Ept Walk

/-! ## Frames that are lent out -/

/-- The contract without the frames of `F`, which keep their contents `m`. -/
def FrameProvider.Contract.lend {σ : Type} {P : FrameProvider σ} (C : P.Contract) (F : PhysAddr → Prop)
    (m : PhysAddr → Index → Nat) : P.Contract where
  valid s := C.valid s ∧ ∀ a, F a → C.owned s a ∧ ∀ i, P.readEntry s a i = m a i
  owned s a := C.owned s a ∧ ¬ F a
  alloc_valid hs h := ⟨C.alloc_valid hs.1 h, fun a ha => ⟨C.alloc_owned hs.1 h a (hs.2 a ha).1, fun i =>
    (C.alloc_same hs.1 h a (hs.2 a ha).1 i).trans ((hs.2 a ha).2 i)⟩⟩
  alloc_owned hs h a ha := ⟨C.alloc_owned hs.1 h a ha.1, ha.2⟩
  alloc_same hs h a ha i := C.alloc_same hs.1 h a ha.1 i
  alloc_frame hs h := C.alloc_frame hs.1 h
  alloc_fresh hs h := by
    obtain ⟨hfresh, howned⟩ := C.alloc_fresh hs.1 h
    exact ⟨fun h' => hfresh h'.1, howned, fun hF => hfresh (hs.2 _ hF).1⟩
  alloc_zero hs h i := C.alloc_zero hs.1 h i
  write_valid {s a} hs ha i v hv := by
    refine ⟨C.write_valid hs.1 ha.1 i v hv, fun b hb => ⟨(C.write_owned hs.1 ha.1 i v hv b).2 (hs.2 b hb).1, fun j => ?_⟩⟩
    have hne : (b, j) ≠ (a, i) := fun heq => ha.2 ((Prod.mk.inj heq).1 ▸ hb)
    rw [C.write_other hs.1 ha.1 i v hv b (hs.2 b hb).1 j hne, (hs.2 b hb).2 j]
  write_owned hs ha i v hv b := and_congr_left fun _ => C.write_owned hs.1 ha.1 i v hv b
  write_self hs ha i v hv := C.write_self hs.1 ha.1 i v hv
  write_other hs ha i v hv b hb j hne := C.write_other hs.1 ha.1 i v hv b hb.1 j hne

/-! ## The making of a VM -/

/-- The tables that the processor finds by an EPTP. -/
def Ept.ofEptp (eptp : Nat) : Ept := ⟨entryAddr eptp⟩

theorem Ept.ofEptp_eptp {e : Ept} (h : e.pml4.addr % pageSize = 0) : ofEptp e.eptp = e := by
  have haddr : e.eptp &&& addrMask = e.pml4.addr := by
    rw [eptp, addrMask_flags _ (by decide), addrMask_flags _ (by decide), addrMask_of_aligned h]
  have hroot : entryAddr e.eptp = e.pml4 := by
    rw [entryAddr, PhysAddr.mk.injEq, haddr]
  rw [ofEptp, hroot]

section Build

variable {σ : Type} (P : FrameProvider σ)

/-- What a guest sees: one page. -/
abbrev GuestPage := Offset → UInt8

/-- The blob, and zeros. -/
def blobPage (blob : List UInt8) : GuestPage := fun k => blob.getD k 0

variable {P} {C : P.Contract} {s s' : σ}

/-- The frames of one VM: those of its tables, its guest's page, and its VMCS. -/
structure VmFrames where
  tables : PhysAddr → Prop
  page : PhysAddr
  vmcs : PhysAddr

def VmFrames.Has (f : VmFrames) (a : PhysAddr) : Prop := f.tables a ∨ a = f.page ∨ a = f.vmcs

/-- The frames `f` are different ones and hold what is to be found by `t`: tables that map one page, and that page. -/
structure Private (C : P.Contract) (s : σ) (t : VmTables) (f : VmFrames) (page : GuestPage) : Prop where
  owned : ∀ a, f.Has a → C.owned s a
  page_apart : ¬ f.tables f.page
  vmcs_apart : ¬ f.tables f.vmcs
  vmcs_page : f.vmcs ≠ f.page
  vmcs : t.vmcsPa = f.vmcs
  aligned : f.page.addr % pageSize = 0
  tree : Tree link (P.readEntry s) (Ept.ofEptp t.eptp).pml4 3 f.tables
  leaf : ∀ q j, q.length = 3 → leaf P (Ept.ofEptp t.eptp) s q j =
    if q = tablePath guestGpa ∧ j = leafIndex guestGpa then some (leafEntry f.page guestFlags) else none
  bytes : ∀ k, peek P s f.page k = page k

/-- A walk sees the tables only. -/
theorem leaf_congr {e : Ept} {owned : PhysAddr → Prop} (ht : Tree link (P.readEntry s) e.pml4 3 owned)
    (hsame : ∀ a, owned a → ∀ i, P.readEntry s' a i = P.readEntry s a i) {q : List Index} (hq : q.length = 3) (j : Index) :
    Ept.leaf P e s' q j = Ept.leaf P e s q j := by
  rw [Ept.leaf, look, (ht.congr hsame fun _ h => h).2 q (Nat.le_of_eq hq), Ept.leaf, look]
  refine congrArg _ (Option.map_congr fun t ht' => ?_)
  exact hsame t (ht.owned (Nat.le_of_eq hq) ht') j

variable {t : VmTables} {f : VmFrames} {page : GuestPage}

/-- **What is done to other frames does not reach a VM.** -/
theorem Private.congr (h : Private C s t f page) (howned : ∀ a, C.owned s a → C.owned s' a)
    (hsame : ∀ a, f.Has a → ∀ i, P.readEntry s' a i = P.readEntry s a i) : Private C s' t f page where
  owned a ha := howned a (h.owned a ha)
  page_apart := h.page_apart
  vmcs_apart := h.vmcs_apart
  vmcs_page := h.vmcs_page
  vmcs := h.vmcs
  aligned := h.aligned
  tree := (h.tree.congr (fun a ha => hsame a (.inl ha)) fun _ ha => ha).1
  leaf q j hq := (leaf_congr h.tree (fun a ha => hsame a (.inl ha)) hq j).trans (h.leaf q j hq)
  bytes k := by
    rw [← h.bytes k, peek, hsame _ (.inr (.inl rfl)), peek]

/-- A byte of the guest's page. -/
theorem Private.poke (h : Private C s t f page) (hs : C.valid s) (k : Offset) (b : UInt8) :
    Private C (poke P s f.page k b) t f (Function.update page k b) := by
  have hpage := h.owned f.page (.inr (.inl rfl))
  obtain ⟨htouch, hpeek⟩ := poke_spec hs hpage k b
  have hsame : ∀ a, f.tables a → ∀ i, P.readEntry (Celium.poke P s f.page k b) a i = P.readEntry s a i := by
    intro a ha
    refine htouch.other a (h.owned a (.inl ha)) ?_
    rintro rfl
    exact h.page_apart ha
  exact {
    owned := fun a ha => (htouch.owned a).2 (h.owned a ha)
    page_apart := h.page_apart
    vmcs_apart := h.vmcs_apart
    vmcs_page := h.vmcs_page
    vmcs := h.vmcs
    aligned := h.aligned
    tree := (h.tree.congr hsame fun _ ha => ha).1
    leaf := fun q j hq => (leaf_congr h.tree hsame hq j).trans (h.leaf q j hq)
    bytes := fun j => by rw [hpeek, Function.update_apply, Function.update_apply, h.bytes] }

/-- An entry of the VMCS. -/
theorem Private.writeVmcs (h : Private C s t f page) (hs : C.valid s) (i : Index) {v : Nat} (hv : v < 2 ^ 64) :
    Private C (P.writeEntry s f.vmcs i v) t f page := by
  have hvmcs := h.owned f.vmcs (.inr (.inr rfl))
  have htouch := touches_write hs hvmcs i hv
  have hsame : ∀ a, f.Has a → a ≠ f.vmcs → ∀ i', P.readEntry (P.writeEntry s f.vmcs i v) a i' = P.readEntry s a i' :=
    fun a ha hne => htouch.other a (h.owned a ha) hne
  have htables : ∀ a, f.tables a → ∀ i', P.readEntry (P.writeEntry s f.vmcs i v) a i' = P.readEntry s a i' := by
    intro a ha
    refine hsame a (.inl ha) ?_
    rintro rfl
    exact h.vmcs_apart ha
  exact {
    owned := fun a ha => (htouch.owned a).2 (h.owned a ha)
    page_apart := h.page_apart
    vmcs_apart := h.vmcs_apart
    vmcs_page := h.vmcs_page
    vmcs := h.vmcs
    aligned := h.aligned
    tree := (h.tree.congr htables fun _ ha => ha).1
    leaf := fun q j hq => (leaf_congr h.tree htables hq j).trans (h.leaf q j hq)
    bytes := fun k => by
      rw [← h.bytes k, peek, hsame _ (.inr (.inl rfl)) h.vmcs_page.symm, peek] }

/-- An allocation that goes wrong leaves a state in order. -/
theorem new_valid {r : HyperResult Ept} (hs : C.valid s) (h : Ept.new P s = (r, s')) :
    C.valid s' ∧ ∀ e, r = .ok e → e.pml4.addr % pageSize = 0 := by
  unfold Ept.new at h
  split at h
  · rename_i pml4 s₁ halloc
    cases h
    refine ⟨C.alloc_valid hs halloc, fun e he => ?_⟩
    cases he
    exact (C.alloc_frame hs halloc).2
  · rename_i err s₁ halloc
    cases h
    exact ⟨C.alloc_valid hs halloc, fun e he => by cases he⟩

/-- The page of a blob, in a frame of zeros. -/
theorem peek_blob {pa : PhysAddr} {blob : List UInt8} (hs : C.valid s) (hpa : C.owned s pa)
    (hzero : ∀ i, P.readEntry s pa i = 0) (hfits : blob.length ≤ pageSize) (k : Offset) :
    peek P (copyIn P pa s 0 blob) pa k = blobPage blob k := by
  rw [(copyIn_spec hs hpa (by omega : 0 + blob.length ≤ pageSize)).2 k, blobPage]
  by_cases hk : k.val < blob.length
  · rw [dif_pos ⟨Nat.zero_le _, by omega⟩, List.getD_eq_getElem _ _ hk]
    rfl
  · rw [dif_neg (by omega), List.getD_eq_default _ _ (by omega), peek, hzero, entryByte_zero]

/-- The contract by which whatever `s` has handed out is kept. -/
def keeping (C : P.Contract) (s : σ) : P.Contract := C.lend (C.owned s) (P.readEntry s)

theorem keeping_self (hs : C.valid s) : (keeping C s).valid s := ⟨hs, fun _ ha => ⟨ha, fun _ => rfl⟩⟩

/-- The tables of an install that succeeded, and the page `hpa` with the blob. -/
structure Installed (C : P.Contract) (ept : Ept) (hpa : PhysAddr) (blob : List UInt8) (m : PhysAddr → Index → Nat) (s : σ) :
    Prop where
  inv : Inv (C.lend (· = hpa) m) ept s
  root : ept.pml4.addr % pageSize = 0
  aligned : hpa.addr % pageSize = 0
  leaf : ∀ q j, q.length = 3 → leaf P ept s q j =
    if q = tablePath guestGpa ∧ j = leafIndex guestGpa then some (leafEntry hpa guestFlags) else none
  bytes : ∀ s', (C.lend (· = hpa) m).valid s' → ∀ k, peek P s' hpa k = blobPage blob k

theorem installFirstGuest_spec {blob : List UInt8} {r : HyperResult Ept} (hs : C.valid s)
    (h : installFirstGuest P s blob = (r, s')) :
    C.valid s' ∧ ∀ ept, r = .ok ept → ∃ hpa m, Installed C ept hpa blob m s' := by
  unfold installFirstGuest at h
  split at h
  · cases h
    exact ⟨hs, nofun⟩
  rename_i hfits
  rw [Nat.not_lt] at hfits
  split at h
  · rename_i e s₁ hnew
    cases h
    exact ⟨(new_valid hs hnew).1, nofun⟩
  rename_i ept s₁ hnew
  obtain ⟨hvalid₁, hroot⟩ := new_valid hs hnew
  obtain ⟨hinv₁, hempty⟩ := new_inv hs hnew
  split at h
  · rename_i e s₂ halloc
    cases h
    exact ⟨C.alloc_valid hvalid₁ halloc, nofun⟩
  rename_i hpa s₂ halloc
  have hvalid₂ := C.alloc_valid hvalid₁ halloc
  obtain ⟨hfresh, howned⟩ := C.alloc_fresh hvalid₁ halloc
  obtain ⟨hcopy, -⟩ := copyIn_spec hvalid₂ howned (by omega : 0 + blob.length ≤ pageSize)
  have hblob := peek_blob hvalid₂ howned (C.alloc_zero hvalid₁ halloc) hfits
  generalize copyIn P hpa s₂ 0 blob = s₃ at h hcopy hblob
  -- The tables are where they were before the page was allocated.
  have hne : ∀ a, C.owned s₁ a → a ≠ hpa := by
    rintro a ha rfl
    exact hfresh ha
  have hsame : ∀ a, C.owned s₁ a → ∀ i, P.readEntry s₃ a i = P.readEntry s₁ a i := by
    intro a ha i
    rw [hcopy.other a (C.alloc_owned hvalid₁ halloc a ha) (hne a ha), C.alloc_same hvalid₁ halloc a ha]
  have hinv₃ : Inv (C.lend (· = hpa) (P.readEntry s₃)) ept s₃ := by
    refine ⟨⟨hcopy.valid, fun a ha => ?_⟩, (hinv₁.tree.congr hsame fun a ha => ⟨?_, hne a ha⟩).1⟩
    · subst ha
      exact ⟨(hcopy.owned a).2 howned, fun _ => rfl⟩
    · exact (hcopy.owned a).2 (C.alloc_owned hvalid₁ halloc a ha)
  split at h
  · rename_i e s₄ hmap
    cases h
    exact ⟨(map4k_spec hinv₃ hmap).1.valid.1, nofun⟩
  · rename_i s₄ hmap
    cases h
    obtain ⟨hinv₄, hok, -⟩ := map4k_spec hinv₃ hmap
    refine ⟨hinv₄.valid.1, fun ept' hept => ?_⟩
    cases hept
    refine ⟨hpa, P.readEntry s₃, hinv₄, hroot ept rfl, (C.alloc_frame hvalid₁ halloc).2, fun q j hq => ?_, fun s'' hs'' k => ?_⟩
    · rw [(hok rfl).2 q j hq, leaf_congr hinv₁.tree hsame hq, hempty q j hq]
    · rw [← hblob k, peek, (hs''.2 hpa rfl).2, peek]

/-- The VMCS is one more frame. -/
theorem Installed.allocInPool {ept : Ept} {hpa : PhysAddr} {blob : List UInt8} {m : PhysAddr → Index → Nat} {rev : UInt32}
    {r : HyperResult PhysAddr} (h : Installed C ept hpa blob m s) (halloc : allocInPool P s rev = (r, s')) :
    C.valid s' ∧ ∀ vmcs, r = .ok vmcs → ∃ f, Private C s' ⟨vmcs, ept.eptp⟩ f (blobPage blob) := by
  unfold Celium.allocInPool at halloc
  split at halloc
  · rename_i e s₁ hfail
    cases halloc
    exact ⟨C.alloc_valid h.inv.valid.1 hfail, nofun⟩
  rename_i vmcs s₁ hok
  cases halloc
  obtain ⟨hfresh, howned⟩ := (C.lend (· = hpa) m).alloc_fresh h.inv.valid hok
  have hkeep := (C.lend (· = hpa) m).alloc_owned h.inv.valid hok
  have hrev : rev.toNat < 2 ^ 64 := Nat.lt_trans rev.toNat_lt (by decide)
  have hwrite := touches_write ((C.lend (· = hpa) m).alloc_valid h.inv.valid hok) howned 0 hrev
  have hsame : ∀ a, (C.lend (· = hpa) m).owned s a → ∀ i,
      P.readEntry (P.writeEntry s₁ vmcs 0 rev.toNat) a i = P.readEntry s a i := by
    intro a ha i
    rw [hwrite.other a (hkeep a ha), (C.lend (· = hpa) m).alloc_same h.inv.valid hok a ha]
    rintro rfl
    exact hfresh ha
  refine ⟨hwrite.valid.1, fun vmcs' hvmcs => ?_⟩
  cases hvmcs
  refine ⟨⟨(C.lend (· = hpa) m).owned s, hpa, vmcs⟩, ?_⟩
  have hroot := Ept.ofEptp_eptp h.root
  exact {
    owned := by
      rintro a (ha | rfl | rfl)
      · exact ((hwrite.owned a).2 (hkeep a ha)).1
      · exact (hwrite.valid.2 _ rfl).1
      · exact ((hwrite.owned _).2 howned).1
    page_apart := fun h => h.2 rfl
    vmcs_apart := hfresh
    vmcs_page := howned.2
    vmcs := rfl
    aligned := h.aligned
    tree := by
      rw [hroot]
      exact (h.inv.tree.congr hsame fun _ ha => ha).1
    leaf := fun q j hq => by
      rw [hroot, leaf_congr h.inv.tree hsame hq]
      exact h.leaf q j hq
    bytes := h.bytes _ hwrite.valid }

/-- **Building a VM leaves alone whatever was handed out before**, whether it succeeds or not, and one that is built has
new frames only. -/
theorem buildVm_spec {steps : VmxSteps} {blob : List UInt8} {r : HyperResult VmTables} (hs : C.valid s)
    (h : buildVm P s steps blob = (r, s')) : (keeping C s).valid s' ∧
      ∀ t, r = .ok t → ∃ f, Private C s' t f (blobPage blob) ∧ ∀ a, f.Has a → ¬ C.owned s a := by
  unfold buildVm at h
  split at h
  · rename_i e s₁ hinstall
    cases h
    exact ⟨(installFirstGuest_spec (keeping_self hs) hinstall).1, nofun⟩
  rename_i ept s₁ hinstall
  obtain ⟨hvalid, hok⟩ := installFirstGuest_spec (keeping_self hs) hinstall
  split at h
  · cases h
    exact ⟨hvalid, nofun⟩
  rename_i rev hrev
  obtain ⟨hpa, m, hinst⟩ := hok ept rfl
  split at h
  · rename_i e s₂ hregion
    cases h
    exact ⟨(hinst.allocInPool hregion).1, nofun⟩
  rename_i vmcs s₂ hregion
  obtain ⟨hvalid₂, hprivate⟩ := hinst.allocInPool hregion
  obtain ⟨rfl, rfl⟩ := Prod.mk.inj h
  refine ⟨hvalid₂, fun t ht => ?_⟩
  obtain rfl : (⟨vmcs, ept.eptp⟩ : VmTables) = t := by
    cases hprogram : steps.program with
    | error e =>
      rw [hprogram] at ht
      cases ht
    | ok u =>
      rw [hprogram] at ht
      exact Except.ok.inj ht
  obtain ⟨f, hf⟩ := hprivate vmcs rfl
  exact ⟨f, { hf with owned := fun a ha => (hf.owned a ha).1 }, fun a ha => (hf.owned a ha).2⟩

end Build

end Celium
