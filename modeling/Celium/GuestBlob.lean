import Celium.GuestIsolation
/-!
# GuestBlob — the guest that prints and halts

`celhyper::guest` builds a blob out of three instructions, which the guest runs in real mode from `0x1000` on, with a code
segment that begins at 0.  It fetches them through its tables.  `out` does not exit, `hlt` does.
-/
namespace Celium

open Ept Runs

/-- `build_blob`. -/
def buildBlob (marker : List UInt8) : List UInt8 :=
  let out := marker.zipIdx.foldl (fun out c =>
    (((out.set (c.2 * 4) 0xB0).set (c.2 * 4 + 1) c.1).set (c.2 * 4 + 2) 0xE6).set (c.2 * 4 + 3) 0xE9)
    (List.replicate (marker.length * 4 + 1) 0)
  out.set (marker.length * 4) 0xF4

/-- The four bytes of one character. -/
def blobChar (c : UInt8) : List UInt8 := [0xB0, c, 0xE6, 0xE9]

/-! ## The blob -/

theorem fill_blob : ∀ (cs : List UInt8) (k : Nat) (done : List UInt8), done.length = k * 4 →
    (cs.zipIdx k).foldl (fun out c =>
        (((out.set (c.2 * 4) 0xB0).set (c.2 * 4 + 1) c.1).set (c.2 * 4 + 2) 0xE6).set (c.2 * 4 + 3) 0xE9)
      (done ++ List.replicate (cs.length * 4 + 1) 0) = done ++ cs.flatMap blobChar ++ [0]
  | [], k, done, _ => by simp
  | c :: cs, k, done, hdone => by
    have hfour : done ++ List.replicate ((c :: cs).length * 4 + 1) 0 =
        done ++ 0 :: 0 :: 0 :: 0 :: List.replicate (cs.length * 4 + 1) (0 : UInt8) := by
      rw [List.length_cons, show (cs.length + 1) * 4 + 1 = cs.length * 4 + 1 + 1 + 1 + 1 + 1 by omega]
      rfl
    have hset : ((((done ++ 0 :: 0 :: 0 :: 0 :: List.replicate (cs.length * 4 + 1) 0).set (k * 4) 0xB0).set (k * 4 + 1)
        c).set (k * 4 + 2) 0xE6).set (k * 4 + 3) 0xE9 =
        done ++ blobChar c ++ List.replicate (cs.length * 4 + 1) (0 : UInt8) := by
      rw [← hdone]
      simp [List.set_append_right, blobChar]
    rw [List.zipIdx_cons, List.foldl_cons, hfour, hset, fill_blob cs (k + 1) (done ++ blobChar c), List.flatMap_cons,
      List.append_assoc done]
    rw [List.length_append, hdone, blobChar]
    simp only [List.length_cons, List.length_nil]
    omega

/-- The characters one after the other, and `hlt`. -/
theorem buildBlob_eq (marker : List UInt8) : buildBlob marker = marker.flatMap blobChar ++ [0xF4] := by
  have hlen : (marker.flatMap blobChar).length = marker.length * 4 := by
    simp [List.length_flatMap, blobChar]
  have hfill := fill_blob marker 0 [] rfl
  rw [List.nil_append, List.nil_append] at hfill
  rw [buildBlob, hfill, ← hlen, List.set_append_right _ _ (Nat.le_refl _), Nat.sub_self, List.set_cons_zero]

/-- The built-in image is one of these. -/
theorem helloBlob_eq : helloBlob = buildBlob guestMarker := (buildBlob_eq guestMarker).symm

/-! ## The processor -/

structure GuestCpu where
  ip : UInt16
  al : UInt8
  /-- What was written, and to which port. -/
  out : List (UInt8 × UInt8)
deriving DecidableEq, Repr

inductive GuestStep where
  | next (c : GuestCpu)
  | exit (reason : UInt16)
  /-- An instruction that the blob has no use for. -/
  | other (opcode : UInt8)
deriving DecidableEq, Repr

def exitReasonNoEpt : UInt16 := 48

namespace GuestCpu

/-- One instruction. -/
def step (fetch : UInt16 → Option UInt8) (c : GuestCpu) : GuestStep :=
  match fetch c.ip with
  | none => .exit exitReasonNoEpt
  | some op =>
    if op = 0xF4 then .exit exitReasonHlt
    else if op = 0xB0 ∨ op = 0xE6 then
      match fetch (c.ip + 1) with
      | none => .exit exitReasonNoEpt
      | some imm =>
        if op = 0xB0 then .next { c with ip := c.ip + 2, al := imm }
        else .next { c with ip := c.ip + 2, out := c.out ++ [(imm, c.al)] }
    else .other op

/-- Up to the exit: its reason, and what was printed. -/
def run (fetch : UInt16 → Option UInt8) : Nat → GuestCpu → Option (UInt16 × List (UInt8 × UInt8))
  | 0, _ => none
  | fuel + 1, c =>
    match c.step fetch with
    | .next c => run fetch fuel c
    | .exit reason => some (reason, c.out)
    | .other _ => none

variable {fetch : UInt16 → Option UInt8}

theorem run_mov {c : GuestCpu} {b : UInt8} (hop : fetch c.ip = some 0xB0) (himm : fetch (c.ip + 1) = some b) (fuel : Nat) :
    run fetch (fuel + 1) c = run fetch fuel { c with ip := c.ip + 2, al := b } := by
  simp [run, step, hop, himm]

theorem run_out {c : GuestCpu} {port : UInt8} (hop : fetch c.ip = some 0xE6) (himm : fetch (c.ip + 1) = some port)
    (fuel : Nat) : run fetch (fuel + 1) c = run fetch fuel { c with ip := c.ip + 2, out := c.out ++ [(port, c.al)] } := by
  simp [run, step, hop, himm]

theorem run_hlt {c : GuestCpu} (hop : fetch c.ip = some 0xF4) (fuel : Nat) :
    run fetch (fuel + 1) c = some (exitReasonHlt, c.out) := by
  simp [run, step, hop]

/-- **The code of a text prints it and halts**, wherever it stands. -/
theorem run_blob : ∀ (marker : List UInt8) (c : GuestCpu) (fuel : Nat), 2 * marker.length < fuel →
    (∀ k (hk : k < (marker.flatMap blobChar ++ [0xF4]).length),
      fetch (c.ip + UInt16.ofNat k) = some (marker.flatMap blobChar ++ [0xF4])[k]) →
    run fetch fuel c = some (exitReasonHlt, c.out ++ marker.map fun ch => (0xE9, ch))
  | [], c, fuel, hfuel, hcode => by
    obtain ⟨fuel, rfl⟩ : ∃ n, fuel = n + 1 := ⟨fuel - 1, by omega⟩
    have hop := hcode 0 (by decide)
    rw [show c.ip + UInt16.ofNat 0 = c.ip from UInt16.add_zero _] at hop
    rw [run_hlt hop, List.map_nil, List.append_nil]
  | ch :: marker, c, fuel, hfuel, hcode => by
    rw [List.length_cons] at hfuel
    obtain ⟨fuel, rfl⟩ : ∃ n, fuel = n + 1 + 1 := ⟨fuel - 2, by omega⟩
    have hhere : ∀ k (hk : k < 4), fetch (c.ip + UInt16.ofNat k) = some (blobChar ch)[k] := by
      intro k hk
      rw [hcode k (by simp [blobChar]; omega)]
      congr 1
      rw [List.getElem_append_left (by simp [blobChar]; omega)]
      simp only [List.flatMap_cons]
      rw [List.getElem_append_left hk]
    have h0 := hhere 0 (by decide)
    rw [show c.ip + UInt16.ofNat 0 = c.ip from UInt16.add_zero _] at h0
    have h2 : fetch (c.ip + 2) = some 0xE6 := hhere 2 (by decide)
    have h3 : fetch (c.ip + 2 + 1) = some 0xE9 := by
      rw [UInt16.add_assoc]
      exact hhere 3 (by decide)
    rw [run_mov h0 (hhere 1 (by decide)), run_out h2 h3]
    refine (run_blob marker _ fuel (by omega) fun k hk => ?_).trans ?_
    · have hnext := hcode (4 + k) (by rw [List.flatMap_cons, List.append_assoc, List.length_append]; exact Nat.add_lt_add_left hk 4)
      dsimp only
      rw [UInt16.add_assoc, UInt16.add_assoc]
      rw [UInt16.ofNat_add] at hnext
      rw [show (2 : UInt16) + (2 + UInt16.ofNat k) = UInt16.ofNat 4 + UInt16.ofNat k by rw [← UInt16.add_assoc]; rfl, hnext]
      simp only [List.flatMap_cons, List.append_assoc]
      rw [List.getElem_append_right (by simp [blobChar])]
      simp [blobChar]
    · simp [blobChar]

end GuestCpu

/-! ## The blob in a VM -/

section Loaded

variable {σ : Type} {P : FrameProvider σ} {C : P.Contract} {h : GuestHost σ} {past : List (GuestMove × GuestAnswer)}
  {i : Fin maxVms}

theorem buildVm_fits {s : σ} {steps : VmxSteps} {blob : List UInt8} {t : VmTables}
    (h : (buildVm P s steps blob).1 = .ok t) : blob.length ≤ pageSize := by
  by_contra hbig
  rw [buildVm, installFirstGuest, if_pos (Nat.not_le.1 hbig)] at h
  cases h

theorem createVm_taken {steps : VmxSteps} {req : CreateVmRequest} (hok : (h.createVm P steps req).1 = .ok i) :
    h.manager.freeSlot = some i ∧ req.blob.length ≤ pageSize := by
  unfold GuestHost.createVm at hok
  split at hok
  · cases hok
  rename_i j hfree
  split at hok
  · cases hok
  · rename_i t s' hbuild
    cases hok
    exact ⟨hfree, buildVm_fits (congrArg Prod.fst hbuild)⟩

theorem ownPage_isSome {page : Option GuestPage} (hpage : page.isSome) (e : GuestMove × GuestAnswer) :
    (ownPage i page e).isSome := by
  unfold ownPage
  split
  · split
    · rfl
    · exact hpage
  · split
    · rw [Option.isSome_map]
      exact hpage
    · exact hpage
  · exact hpage

/-- A slot whose VM was created has a page from then on. -/
theorem created_isSome {steps : VmxSteps} {req : CreateVmRequest} : ∀ {past : List (GuestMove × GuestAnswer)}
    {page : Option GuestPage}, (.create steps req, .created (.ok i)) ∈ past ∨ page.isSome →
      (past.foldl (ownPage i) page).isSome
  | [], _, hor => hor.resolve_left List.not_mem_nil
  | e :: past, page, hor => by
    rw [List.foldl_cons]
    refine @created_isSome steps req past _ ?_
    rcases hor with hmem | hpage
    · rcases List.mem_cons.1 hmem with rfl | hmem
      · refine .inr ?_
        dsimp only [ownPage]
        rw [if_pos rfl]
        rfl
      · exact .inl hmem
    · exact .inr (ownPage_isSome hpage e)

/-- A guest that does not store has its blob. -/
def Loaded (i : Fin maxVms) (past : List (GuestMove × GuestAnswer)) : Prop :=
  ∀ steps req, (.create steps req, .created (.ok i)) ∈ past → (∀ gpa b a, (.guestStore i gpa b, a) ∉ past) →
    past.foldl (ownPage i) none = some (blobPage req.blob) ∧ req.blob.length ≤ pageSize

theorem Guests.vacant (hguests : Guests C h past) (hfree : h.manager.freeSlot = some i) :
    past.foldl (ownPage i) none = none := by
  have hvacant : h.manager.occupied i = false := by simpa using List.find?_some hfree
  obtain ⟨f, hviews, -⟩ := hguests.views
  have hi := hviews i
  generalize ht : h.tables i = o at hi
  generalize past.foldl (ownPage i) none = page at hi ⊢
  cases hi with
  | none => rfl
  | some hp =>
    have hocc := hguests.occupied i (by rw [ht]; rfl)
    rw [hvacant] at hocc
    cases hocc

theorem Guests.loaded_step (hguests : Guests C h past) (hloaded : Loaded i past) (a : GuestMove) :
    Loaded i (past ++ [(a, (h.step P a).1)]) := by
  intro steps req hmem hquiet
  rw [List.foldl_append, List.foldl_cons, List.foldl_nil]
  rcases List.mem_append.1 hmem with hold | hnew
  · obtain ⟨hpage, hfits⟩ := hloaded steps req hold fun gpa b a' hin => hquiet gpa b a' (List.mem_append_left _ hin)
    refine ⟨?_, hfits⟩
    rw [hpage]
    have hsome := @created_isSome _ _ _ _ none (.inl hold)
    cases a with
    | create steps' req' =>
      change ownPage i _ (.create steps' req', .created (h.createVm P steps' req').1) = _
      cases hok : (h.createVm P steps' req').1 with
      | error e => rfl
      | ok j =>
        refine if_neg ?_
        rintro rfl
        rw [hguests.vacant (createVm_taken hok).1] at hsome
        cases hsome
    | guestStore j gpa b =>
      refine if_neg ?_
      rintro ⟨rfl, -⟩
      exact hquiet gpa b _ (List.mem_append_right _ (List.mem_singleton.2 rfl))
    | start hw id => rfl
    | stop id => rfl
    | delete id => rfl
    | vmcsStore j k v => rfl
  · rw [List.mem_singleton] at hnew
    obtain ⟨rfl, hans⟩ := Prod.mk.inj hnew
    rw [← hans]
    have hok : (h.createVm P steps req).1 = .ok i := GuestAnswer.created.inj hans.symm
    exact ⟨if_pos rfl, (createVm_taken hok).2⟩

theorem loaded_run {s : σ} (hs : C.valid s) (moves : List GuestMove) :
    Loaded i (history (GuestHost.step P) (GuestHost.boot s) moves) :=
  (inv_history (I := fun h past => Guests C h past ∧ Loaded i past)
    (fun _ _ a hinv => ⟨hinv.1.step a, hinv.1.loaded_step hinv.2 a⟩) ⟨Guests.boot hs, fun _ _ hmem => by cases hmem⟩
    moves).2

end Loaded

namespace GuestHost

variable {σ : Type} (P : FrameProvider σ)

/-- An instruction fetch by the guest of a slot: its code segment begins at 0. -/
def fetch (h : GuestHost σ) (i : Fin maxVms) (ip : UInt16) : Option UInt8 :=
  h.load P i ⟨ip.toNat, Nat.lt_trans ip.toNat_lt (by decide)⟩

variable {P}

/-- A guest that has not stored fetches its blob. -/
theorem fetch_blob {h : GuestHost σ} {i : Fin maxVms} {blob : List UInt8} {k : Nat} (hk : k < blob.length)
    (hfits : blob.length ≤ pageSize)
    (hload : ∀ gpa : GuestAddr, h.load P i gpa = if gpa.InPage then some (blobPage blob gpa.offset) else none) :
    h.fetch P i (0x1000 + UInt16.ofNat k) = some blob[k] := by
  have hpage : k < 4096 := Nat.lt_of_lt_of_le hk hfits
  have hip : (0x1000 + UInt16.ofNat k).toNat = 4096 + k := by
    rw [UInt16.toNat_add, UInt16.toNat_ofNat']
    change (4096 + k % 2 ^ 16) % 2 ^ 16 = _
    omega
  rw [fetch, hload, if_pos]
  · have hoff : (4096 + k) % pageSize = k := by
      rw [pageSize]
      omega
    simp only [blobPage, GuestAddr.offset, hip, hoff]
    rw [List.getD_eq_getElem _ _ hk]
  · simp only [GuestAddr.InPage, hip, pageSize]
    omega

/-- **A guest made from `build_blob` prints its text and halts**, whatever else has been going on.  It runs to the `HLT` exit
and writes the text to port `0xE9`, and a VM that is started then, having been `Created`, is left `Halted`. -/
theorem hello_halts (C : P.Contract) {s : σ} (hs : C.valid s) {moves : List GuestMove} {i : Fin maxVms} {steps : VmxSteps}
    {marker : List UInt8} {rsp : Nat}
    (hcreated : (.create steps ⟨buildBlob marker, 0x1000, rsp⟩, .created (.ok i)) ∈
      history (step P) (boot s) moves)
    (hquiet : ∀ gpa b, .guestStore i gpa b ∉ moves) (al : UInt8) :
    (∀ fuel, 2 * marker.length < fuel →
      GuestCpu.run ((Runs.run (step P) (boot s) moves).fetch P i) fuel ⟨0x1000, al, []⟩ =
        some (exitReasonHlt, marker.map fun c => (0xE9, c))) ∧
    ∀ vm hw, (Runs.run (step P) (boot s) moves).manager.registry i = some vm → vm.state = .created →
      hw.setActive = none → hw.launch = .exit exitReasonHlt →
        (step P (Runs.run (step P) (boot s) moves) (.start hw (UInt32.ofNat i))).2.manager.registry i =
          some { vm with state := .halted, lastExitReason := exitReasonHlt.toUInt32 } := by
  obtain ⟨hpage, hfits⟩ := loaded_run hs moves _ _ hcreated fun gpa b a hin => hquiet gpa b (List.of_mem_zip hin).1
  have hload : ∀ gpa : GuestAddr, (Runs.run (step P) (boot s) moves).load P i gpa =
      if gpa.InPage then some (blobPage (buildBlob marker) gpa.offset) else none := by
    intro gpa
    rw [(Guests.run hs moves).load i gpa, hpage]
    rfl
  refine ⟨fun fuel hfuel => ?_, fun vm hw hvm hstate hactive hlaunch => ?_⟩
  · refine GuestCpu.run_blob marker ⟨0x1000, al, []⟩ fuel hfuel fun k hk => ?_
    rw [← buildBlob_eq] at hk
    rw [fetch_blob hk hfits hload]
    simp only [buildBlob_eq]
  · have hid : (UInt32.ofNat i.val).toNat = i.val := by
      have := i.isLt
      rw [UInt32.toNat_ofNat', Nat.mod_eq_of_lt (by simp only [maxVms] at this; omega)]
    have hlookup : (Runs.run (step P) (boot s) moves).manager.lookup (UInt32.ofNat i.val) = .ok (i, vm) :=
      Manager.lookup_ok _ |>.2 ⟨hid, hvm⟩
    simp only [step, Manager.startVm, hlookup, hactive, Vm.markRunning, Vm.transition, if_pos hstate, hlaunch,
      Launch.finish, Vm.onExit, Manager.setVm, Function.update_self, if_true]

theorem one_lt_maxVms : 1 < maxVms := by decide
theorem loadAddr_lt : 0x1000 < 2 ^ 48 := by decide

/-- The two VMs of a boot, where the second one's guest writes over its page. -/
def twoHellos : List GuestMove :=
  [.create fineSteps ⟨buildBlob guestMarker, 0x1000, 0⟩, .create fineSteps ⟨buildBlob guestMarker, 0x1000, 0⟩,
    .guestStore ⟨1, one_lt_maxVms⟩ ⟨0x1000, loadAddr_lt⟩ 0xCC]

/-- The first one prints, and is `Halted` after its start. -/
theorem hello_halts_first :
    (∀ fuel, 2 * guestMarker.length < fuel →
      GuestCpu.run ((Runs.run (step kernelFrames) (boot freshPool) twoHellos).fetch kernelFrames ⟨0, by decide⟩) fuel
        ⟨0x1000, 0, []⟩ = some (exitReasonHlt, guestMarker.map fun c => (0xE9, c))) ∧
    ((step kernelFrames (Runs.run (step kernelFrames) (boot freshPool) twoHellos) (.start .fine 0)).2.manager.registry
      ⟨0, by decide⟩).map (·.state) = some .halted := by
  have hvalid : kernelContract.valid freshPool := ⟨by decide, fun _ _ _ => rfl⟩
  have hcreated : (.create fineSteps ⟨buildBlob guestMarker, 0x1000, 0⟩, .created (.ok ⟨0, by decide⟩)) ∈
      history (step kernelFrames) (boot freshPool) twoHellos := List.mem_of_mem_head? rfl
  have hquiet : ∀ gpa b, .guestStore ⟨0, by decide⟩ gpa b ∉ twoHellos := by
    simp [twoHellos]
  obtain ⟨hrun, hstart⟩ := hello_halts kernelContract hvalid hcreated hquiet 0
  obtain ⟨vm, hvm, hstate⟩ : ∃ vm, (Runs.run (step kernelFrames) (boot freshPool) twoHellos).manager.registry
      ⟨0, by decide⟩ = some vm ∧ vm.state = .created := ⟨_, rfl, rfl⟩
  exact ⟨hrun, congrArg _ (hstart vm .fine hvm hstate rfl rfl)⟩

end GuestHost

end Celium
