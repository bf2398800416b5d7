import Celium.Jmp
/-!
# Trampoline — from a VM exit back into `start_vm`

The landing pad of `vmx::exit`: on an exit the CPU loads the host's `rip` and `rsp` and resets `rflags`, and every other
register still is the guest's.  The trampoline spills them into `GUEST_REGS` and calls the dispatcher, which ends in a
`longjmp`.  The dispatcher itself and `start_vm` are compiled code: here they are whatever leaves the cells alone.
-/
namespace Celium

open X86

namespace Trampoline

/-! ## The routine -/

/-- `GuestRegs`: sixteen registers and `rflags`. -/
def guestRegsBytes : Nat := 0x88

/-- The registers, spilled through `rax`. -/
def spillOps (ptr : Word) : List X86.Op :=
  [.push .rax,
    .load .rax (.sym ptr),
    .pop (.at .rax 0x00),
    .store (.at .rax 0x08) .rcx,
    .store (.at .rax 0x10) .rdx,
    .store (.at .rax 0x18) .rbx,
    -- the host's, not the guest's
    .store (.at .rax 0x20) .rsp,
    .store (.at .rax 0x28) .rbp,
    .store (.at .rax 0x30) .rsi,
    .store (.at .rax 0x38) .rdi,
    .store (.at .rax 0x40) .r8,
    .store (.at .rax 0x48) .r9,
    .store (.at .rax 0x50) .r10,
    .store (.at .rax 0x58) .r11,
    .store (.at .rax 0x60) .r12,
    .store (.at .rax 0x68) .r13,
    .store (.at .rax 0x70) .r14,
    .store (.at .rax 0x78) .r15]

def flagsOps : List X86.Op := [.pushfq, .pop (.at .rax 0x80), .subImm .rsp 8]

/-- `vmexit_trampoline`, up to the label `1`. -/
def vmexitTrampoline (ptr dispatch : Word) : List Instr :=
  (spillOps ptr).map .op ++ flagsOps.map .op ++ [.call dispatch, .op .cli]

/-- From the label on, which is at `one`. -/
def vmexitTrampolineOne (one : Word) : List Instr := [.hlt, .jmp one]

/-- Where the linker has put the trampoline, the dispatcher and the cell. -/
structure Linked (code : Code) where
  trampoline : Word
  dispatch : Word
  ptr : Word
  one : Word
  oneEnd : Word
  trampolineCode : Placed code trampoline (vmexitTrampoline ptr dispatch) one
  oneCode : Placed code one (vmexitTrampolineOne one) oneEnd

/-- The trampoline assembled at the end of other code. -/
def linkedAt (a ptr dispatch : Word) (pre : List Instr) (hlen : pre.length + 25 < 2 ^ 64) :
    Linked (assemble a (pre ++ (vmexitTrampoline ptr dispatch ++
      vmexitTrampolineOne (a + BitVec.ofNat 64 pre.length + 23)))) where
  trampoline := a + BitVec.ofNat 64 pre.length
  dispatch := dispatch
  ptr := ptr
  one := a + BitVec.ofNat 64 pre.length + 23
  oneEnd := a + BitVec.ofNat 64 pre.length + 25
  trampolineCode := by
    rw [← List.append_assoc]
    exact placed_assemble a pre (vmexitTrampoline ptr dispatch) _ rfl (show pre.length + 23 < 2 ^ 64 by omega)
  oneCode := by
    have h := placed_assemble a (pre ++ vmexitTrampoline ptr dispatch)
      (vmexitTrampolineOne (a + BitVec.ofNat 64 pre.length + 23)) [] (b := a + BitVec.ofNat 64 pre.length + 23)
      (by rw [List.length_append]; change _ = a + BitVec.ofNat 64 (pre.length + 23); bv_omega)
      (by rw [List.length_append]; change pre.length + 23 + 2 < 2 ^ 64; omega)
    have hend : a + BitVec.ofNat 64 pre.length + 23 +
        BitVec.ofNat 64 (vmexitTrampolineOne (a + BitVec.ofNat 64 pre.length + 23)).length =
        a + BitVec.ofNat 64 pre.length + 25 := BitVec.add_assoc _ 23 2
    rwa [hend, List.append_nil, List.append_assoc] at h

/-- What the CPU makes of a guest's registers on an exit. -/
def vmExit (hostRsp : Word) (g : Data) : Data := { g.set .rsp hostRsp with rflags := 2 }

theorem vmExit_rsp (hostRsp : Word) (g : Data) : (vmExit hostRsp g).regs .rsp = hostRsp := by
  change (g.set .rsp hostRsp).regs .rsp = hostRsp
  rw [Data.set_regs, if_pos rfl]

/-- `host_rsp_top`, for the stack at `base`. -/
def hostRspTop (base : Word) : Word := base + 16 * 1024 - 8

/-! ## The spill -/

/-- `GuestRegs` without `rflags`. -/
def spilled (g : Data) : List Word :=
  [g.regs .rax, g.regs .rcx, g.regs .rdx, g.regs .rbx, g.regs .rsp, g.regs .rbp, g.regs .rsi, g.regs .rdi,
    g.regs .r8, g.regs .r9, g.regs .r10, g.regs .r11, g.regs .r12, g.regs .r13, g.regs .r14, g.regs .r15]

/-- `GuestRegs` as it is filled in at a state of the landing pad. -/
def guestRegs (g : Data) : List Word := spilled g ++ [g.rflags &&& 0xFCFFFF]

variable (cpu : Cpu) {code : Code}

theorem spill_mem {ptr buf : Word} {g : Data} (hptr : (g.mem.store (g.regs .rsp - 8) (g.regs .rax)).load ptr = buf) :
    (applyAll cpu (spillOps ptr) g).mem = (g.mem.store (g.regs .rsp - 8) (g.regs .rax)).storeAll buf (spilled g) := by
  simp only [BitVec.ofNat_eq_ofNat] at hptr
  simp only [applyAll, spillOps, List.foldl_cons, List.foldl_nil, Op.apply, Ref.addr_at, Ref.addr_sym, Data.set_regs,
    Data.write_regs, Data.set_mem, Data.write_mem, hptr, reduceCtorEq, if_true, if_false, spilled, Memory.storeAll,
    Memory.load_store_self, BitVec.ofNat_eq_ofNat, BitVec.add_assoc, BitVec.reduceAdd, BitVec.add_zero,
    BitVec.sub_add_cancel]

theorem spill_regs {ptr buf : Word} {g : Data} (hptr : (g.mem.store (g.regs .rsp - 8) (g.regs .rax)).load ptr = buf)
    (r : Reg) : (applyAll cpu (spillOps ptr) g).regs r = if r = .rax then buf else g.regs r := by
  cases r <;> simp only [applyAll, spillOps, List.foldl_cons, List.foldl_nil, Op.apply, Ref.addr_sym, Data.set_regs,
    Data.write_regs, Data.write_mem, Data.set_mem, hptr, reduceCtorEq, if_true, if_false, BitVec.sub_add_cancel]

theorem spill_rflags (ptr : Word) (g : Data) : (applyAll cpu (spillOps ptr) g).rflags = g.rflags := rfl

theorem flags_mem (u : Data) : (applyAll cpu flagsOps u).mem =
    (u.mem.store (u.regs .rsp - 8) (u.rflags &&& 0xFCFFFF)).store (u.regs .rax + 0x80) (u.rflags &&& 0xFCFFFF) := by
  simp only [applyAll, flagsOps, List.foldl_cons, List.foldl_nil, Op.apply, Ref.addr_at, Data.set_regs, Data.write_regs,
    Data.set_mem, Data.write_mem, reduceCtorEq, if_true, if_false, Memory.load_store_self]

theorem flags_regs (u : Data) (r : Reg) :
    (applyAll cpu flagsOps u).regs r = if r = .rsp then u.regs .rsp - 8 else u.regs r := by
  cases r <;> simp only [applyAll, flagsOps, List.foldl_cons, List.foldl_nil, Op.apply, Data.set_regs, Data.write_regs,
    reduceCtorEq, if_true, if_false, BitVec.sub_add_cancel]

/-! ## The way to the dispatcher -/

/-- The buffer and its cell stand apart from the two quadwords below the host's `rsp`. -/
structure Separate (l : Linked code) (buf hostRsp : Word) : Prop where
  buf : Apart buf guestRegsBytes (hostRsp - 16) 16
  cell : Apart l.ptr 8 (hostRsp - 16) 16

theorem upper_inside (h : Word) : Inside (h - 8) 8 (h - 16) 16 := by
  intro x hx
  unfold Within at *
  bv_omega

theorem lower_inside (h : Word) : Inside (h - 8 - 8) 8 (h - 16) 16 := by
  intro x hx
  unfold Within at *
  bv_omega

/-- The slot of `rflags`. -/
theorem slot_inside (buf : Word) : Inside (buf + 0x80) 8 buf guestRegsBytes := by
  intro x hx
  unfold Within guestRegsBytes at *
  bv_omega

/-- What the trampoline leaves. -/
structure Spilled (buf : Word) (g d : Data) : Prop where
  held : d.mem.Holds buf (guestRegs g)
  rsp : d.regs .rsp = g.regs .rsp - 16
  regs : ∀ r, r ≠ .rax → r ≠ .rsp → d.regs r = g.regs r
  frame : ∀ x, ¬ Within buf guestRegsBytes x → ¬ Within (g.regs .rsp - 16) 16 x → d.mem x = g.mem x

/-- **The trampoline reaches the dispatcher**, with every register of the guest in `GUEST_REGS`. -/
theorem reaches_dispatch (l : Linked code) {buf : Word} {g : Data} (hptr : g.mem.load l.ptr = buf)
    (hsep : Separate l buf (g.regs .rsp)) :
    ∃ d : Data, Reaches cpu code ⟨g, l.trampoline⟩ ⟨d, l.dispatch⟩ ∧ Spilled buf g d := by
  obtain ⟨mid, hops, hcall⟩ := placed_append.1 l.trampolineCode
  obtain ⟨mid', hspill, hflags⟩ := placed_append.1 hops
  have hptr' : (g.mem.store (g.regs .rsp - 8) (g.regs .rax)).load l.ptr = buf := by
    rw [Memory.load_store_of_apart (hsep.cell.mono (inside_refl _ _) (upper_inside _)), hptr]
  have hmem := spill_mem cpu hptr'
  have hregs := spill_regs cpu hptr'
  have hrflags := spill_rflags cpu l.ptr g
  have hreach : Reaches cpu code ⟨g, l.trampoline⟩ ⟨applyAll cpu (spillOps l.ptr) g, mid'⟩ := reaches_applyAll hspill g
  generalize applyAll cpu (spillOps l.ptr) g = u at hmem hregs hrflags hreach
  have hrax : u.regs .rax = buf := hregs .rax
  have hrsp : u.regs .rsp = g.regs .rsp := hregs .rsp
  have hmem' := flags_mem cpu u
  have hregs' := flags_regs cpu u
  have hreach' : Reaches cpu code ⟨u, mid'⟩ ⟨applyAll cpu flagsOps u, mid⟩ := reaches_applyAll hflags u
  generalize applyAll cpu flagsOps u = v at hmem' hregs' hreach'
  rw [hrax, hrsp, hrflags, hmem] at hmem'
  obtain ⟨next, hcall, -⟩ := hcall
  have hstep : X86.step cpu code ⟨v, mid⟩ = some ⟨(v.set .rsp (v.regs .rsp - 8)).write (v.regs .rsp - 8) next, l.dispatch⟩ := by
    rw [X86.step, hcall]
    rfl
  have hvrsp : v.regs .rsp = g.regs .rsp - 8 := by rw [hregs', if_pos rfl, hrsp]
  refine ⟨_, (hreach.trans hreach').trans (.step hstep), ?_, ?_, ?_, ?_⟩
  · -- the buffer is filled in two parts, and nothing below the host's `rsp` reaches it
    have hbuf : Apart buf (8 * (spilled g).length) (g.regs .rsp - 8) 8 :=
      hsep.buf.mono (fun x hx => Nat.lt_trans hx (show 8 * 16 < guestRegsBytes by decide)) (upper_inside _)
    have hspilled : ((g.mem.store (g.regs .rsp - 8) (g.regs .rax)).storeAll buf (spilled g)).Holds buf (spilled g) :=
      Memory.holds_storeAll (by simp [spilled])
    have hkept := hspilled.congr (by simp [spilled]) (Memory.agree_store hbuf (g.rflags &&& 0xFCFFFF))
    have hall := hkept.concat (v := g.rflags &&& 0xFCFFFF) (by simp [spilled])
    refine hall.congr (by simp [spilled]) ?_
    rw [Data.write_mem, Data.set_mem, hvrsp, hmem']
    exact Memory.agree_store (hsep.buf.mono (fun x hx => hx) (lower_inside _)) next
  · rw [Data.write_regs, Data.set_regs, if_pos rfl, hvrsp]
    bv_omega
  · intro r hrax' hrsp'
    rw [Data.write_regs, Data.set_regs, if_neg hrsp', hregs', if_neg hrsp', hregs, if_neg hrax']
  · intro x hx hx'
    have hupper : ¬ Within (g.regs .rsp - 8) 8 x := fun h => hx' (upper_inside _ x h)
    have hlower : ¬ Within (g.regs .rsp - 8 - 8) 8 x := fun h => hx' (lower_inside _ x h)
    have hlast : ¬ Within (buf + 0x80) 8 x := fun h => hx (slot_inside buf x h)
    have hfirst : ¬ Within buf (8 * (spilled g).length) x :=
      fun h => hx (Nat.lt_trans h (show 8 * 16 < guestRegsBytes by decide))
    rw [Data.write_mem, Data.set_mem, hvrsp, Memory.store_of_outside hlower, hmem', Memory.store_of_outside hlast,
      Memory.store_of_outside hupper, Memory.storeAll_of_outside (by simp [spilled]) hfirst, Memory.store_of_outside hupper]

/-! ## Back into `start_vm` -/

/-- The tag of a raw exit reason: the basic reason, and bit 32. -/
def exitTag (raw : Word) : Word := (1 <<< 32) ||| (raw &&& 0xFFFF)

theorem exitTag_ne_zero (raw : Word) : exitTag raw ≠ 0 := by
  intro h
  have hbit : (exitTag raw).getLsbD 32 = true := by simp [exitTag]
  rw [h] at hbit
  cases hbit

/-- What the linker sees to: the window of `setjmp`, `GUEST_REGS`, their cells and the host's stack do not overlap. -/
structure Layout (lj : Jmp.Linked code) (lt : Linked code) (window regs stack : Word) : Prop where
  cellWindow : Apart lj.ptr 8 window Jmp.windowBytes
  cellRegs : Apart lj.ptr 8 regs guestRegsBytes
  cellStack : Apart lj.ptr 8 (hostRspTop stack - 16) 16
  windowRegs : Apart window Jmp.windowBytes regs guestRegsBytes
  windowStack : Apart window Jmp.windowBytes (hostRspTop stack - 16) 16
  separate : Separate lt regs (hostRspTop stack)
  aligned : stack.toNat % 16 = 0

theorem Spilled.agree {buf a : Word} {n : Nat} {g d : Data} (h : Spilled buf g d) (hbuf : Apart a n buf guestRegsBytes)
    (hstack : Apart a n (g.regs .rsp - 16) 16) : X86.Agree a n d.mem g.mem :=
  fun x hx => h.frame x (hbuf x hx) (hstack x hx)

/-- **`start_vm` gets back what it had.**  It calls `setjmp` and launches a guest.  Whatever the guest has left in the
registers when it exits, the dispatcher is called with all of them in `GUEST_REGS` (the exit itself has put the host's
stack pointer and the reset flags in the places of two of them) and with the stack aligned for a call; and when the
dispatcher ends in a `longjmp` with its tag, that very call of `setjmp` returns once more, with the tag, which is not zero,
and with the stack pointer and the registers that a callee keeps as it had them. -/
theorem start_vm_resumes (lj : Jmp.Linked code) (lt : Linked code) (window regs stack : Word)
    (hl : Layout lj lt window regs stack) (s : Data) (hptr : s.mem.load lj.ptr = window)
    (hframe : Apart (s.regs .rsp) 8 window Jmp.windowBytes) :
    ∃ s₁ : Data, Reaches cpu code ⟨s, lj.setjmp⟩ ⟨s₁, s.mem.load (s.regs .rsp)⟩ ∧ Jmp.Returned window s s₁ ∧
      ∀ g : Data, X86.Agree window Jmp.windowBytes g.mem s₁.mem → X86.Agree lj.ptr 8 g.mem s₁.mem → g.mem.load lt.ptr = regs →
        ∃ d : Data, Reaches cpu code ⟨vmExit (hostRspTop stack) g, lt.trampoline⟩ ⟨d, lt.dispatch⟩ ∧
          Spilled regs (vmExit (hostRspTop stack) g) d ∧ (d.regs .rsp + 8).toNat % 16 = 0 ∧
          ∀ (t : Data) (raw : Word), X86.Agree window Jmp.windowBytes t.mem d.mem → X86.Agree lj.ptr 8 t.mem d.mem →
            t.regs .rdi = exitTag raw →
            ∃ u : Data, Reaches cpu code ⟨t, lj.longjmp⟩ ⟨u, s.mem.load (s.regs .rsp)⟩ ∧
              Jmp.Resumed s₁.regs (s₁.regs .rsp) t u ∧ u.regs .rax = exitTag raw ∧ u.regs .rax ≠ 0 := by
  obtain ⟨s₁, hreach, hret, harmed⟩ := Jmp.reaches_setjmp cpu lj hptr hframe hl.cellWindow
  refine ⟨s₁, hreach, hret, fun g hwindow hcell hregs => ?_⟩
  have hexit := vmExit_rsp (hostRspTop stack) g
  have hsep : Separate lt regs ((vmExit (hostRspTop stack) g).regs .rsp) := by
    rw [hexit]
    exact hl.separate
  have hload : (vmExit (hostRspTop stack) g).mem.load lt.ptr = regs := hregs
  obtain ⟨d, hreach', hspilled⟩ := reaches_dispatch cpu lt hload hsep
  refine ⟨d, hreach', hspilled, ?_, fun t raw hwindow' hcell' hrdi => ?_⟩
  · have haligned := hl.aligned
    rw [hspilled.rsp, hexit, hostRspTop]
    bv_omega
  · -- neither the guest, nor the trampoline, nor the dispatcher has touched the window or its cell
    have hkeepWindow : X86.Agree window Jmp.windowBytes d.mem g.mem := by
      refine hspilled.agree hl.windowRegs ?_
      rw [hexit]
      exact hl.windowStack
    have hkeepCell : X86.Agree lj.ptr 8 d.mem g.mem := by
      refine hspilled.agree hl.cellRegs ?_
      rw [hexit]
      exact hl.cellStack
    obtain ⟨u, hreach'', hres⟩ := Jmp.reaches_longjmp cpu lj
      (harmed.congr ((hwindow'.trans hkeepWindow).trans hwindow) ((hcell'.trans hkeepCell).trans hcell))
    have htag : u.regs .rax = exitTag raw := by rw [hres.rax, hrdi, if_neg (exitTag_ne_zero raw)]
    refine ⟨u, hreach'', ⟨hres.rax, hres.rsp.trans hret.rsp.symm, fun r hr => ?_, hres.mem, hres.direction⟩, htag, ?_⟩
    · rw [hres.saved r hr, hret.saved r hr]
    · rw [htag]
      exact exitTag_ne_zero raw

/-- The routines one after the other from `0x400000` on, with the dispatcher elsewhere. -/
def sampleKernel : Code :=
  assemble 0x400000 (Jmp.celhyperSetjmp 0x1000 ++ Jmp.celhyperLongjmp 0x1000 0x40001A ++ Jmp.celhyperLongjmpOne ++
    (vmexitTrampoline 0x1008 0x500000 ++ vmexitTrampolineOne 0x400033))

/-- A caller with its stack at `0x8000`, the window at `0x2000` and `GUEST_REGS` at `0x2100`. -/
def sampleHost : Data :=
  ⟨fun r => if r = .rsp then 0x8000 else 7, 2, Memory.store (Memory.store (fun _ => 0) 0x1000 0x2000) 0x1008 0x2100⟩

def sampleJmp : Jmp.Linked sampleKernel := Jmp.linkedAt 0x400000 0x1000 _

def sampleTrampoline : Linked sampleKernel := linkedAt 0x400000 0x1008 0x500000
  (Jmp.celhyperSetjmp 0x1000 ++ Jmp.celhyperLongjmp 0x1000 0x40001A ++ Jmp.celhyperLongjmpOne) (by decide)

theorem sampleLayout : Layout sampleJmp sampleTrampoline 0x2000 0x2100 0x10000 := by
  have hptr : sampleJmp.ptr = 0x1000 := rfl
  have hptr' : sampleTrampoline.ptr = 0x1008 := rfl
  constructor
  case separate =>
    constructor
    · intro x hx hx'; unfold Within guestRegsBytes hostRspTop at *; bv_omega
    · rw [hptr']; intro x hx hx'; unfold Within hostRspTop at *; bv_omega
  case aligned => decide
  case windowRegs => intro x hx hx'; unfold Within Jmp.windowBytes guestRegsBytes at *; bv_omega
  case windowStack => intro x hx hx'; unfold Within Jmp.windowBytes hostRspTop at *; bv_omega
  all_goals
    rw [hptr]
    intro x hx hx'
    unfold Within at *
    simp only [Jmp.windowBytes, guestRegsBytes, hostRspTop] at hx'
    bv_omega

/-- The guest leaves nine in `rbx` and halts; `start_vm` goes on with its own `rbx`, and with the tag of that exit. -/
theorem start_vm_resumes_hlt : ∃ s₁ d u : Data,
    Reaches ⟨fun _ => false⟩ sampleKernel ⟨sampleHost, 0x400000⟩ ⟨s₁, sampleHost.mem.load 0x8000⟩ ∧ s₁.regs .rax = 0 ∧
      Reaches ⟨fun _ => false⟩ sampleKernel ⟨vmExit (hostRspTop 0x10000) (s₁.set .rbx 9), 0x40001C⟩ ⟨d, 0x500000⟩ ∧
      Reaches ⟨fun _ => false⟩ sampleKernel ⟨d.set .rdi (exitTag 12), 0x40000D⟩ ⟨u, sampleHost.mem.load 0x8000⟩ ∧
      u.regs .rax = 0x10000000C ∧ u.regs .rbx = s₁.regs .rbx := by
  have hcell : sampleHost.mem.load sampleJmp.ptr = 0x2000 := by
    refine (Memory.load_store_of_apart ?_ _).trans (Memory.load_store_self _ _ _)
    intro x hx hx'
    change (x - 0x1000).toNat < 8 at hx
    unfold Within at hx'
    bv_omega
  have hframe : Apart (sampleHost.regs .rsp) 8 0x2000 Jmp.windowBytes := by
    change Apart 0x8000 8 _ _
    intro x hx hx'
    unfold Within Jmp.windowBytes at *
    bv_omega
  obtain ⟨s₁, hreach, hret, hguest⟩ := start_vm_resumes ⟨fun _ => false⟩ sampleJmp sampleTrampoline 0x2000 0x2100 0x10000
    sampleLayout sampleHost hcell hframe
  have hregs : s₁.mem.load 0x1008 = 0x2100 := by
    refine (Memory.load_congr (fun x hx => hret.frame x ?_)).trans (Memory.load_store_self _ _ _)
    unfold Within Jmp.windowBytes at *
    bv_omega
  obtain ⟨d, hreach', -, -, hback⟩ := hguest (s₁.set .rbx 9) (fun _ _ => rfl) (fun _ _ => rfl) hregs
  obtain ⟨u, hreach'', hres, htag, -⟩ := hback (d.set .rdi (exitTag 12)) 12 (fun _ _ => rfl) (fun _ _ => rfl) rfl
  exact ⟨s₁, d, u, hreach, hret.rax, hreach', hreach'', htag.trans (by decide), hres.saved .rbx (by decide)⟩

end Trampoline

end Celium
