import Celium.Lib.X86
/-!
# Jmp — the way back from the exit dispatcher

`celhyper_setjmp` and `celhyper_longjmp` of the hypervisor's `jmp`, instruction by instruction.  The window is at the
address that `init` puts into the cell `JMP_BUF_PTR`.
-/
namespace Celium

open X86

namespace Jmp

/-! ## The routines -/

/-- `JmpBuf`: the registers a callee keeps, the stack pointer and the place to go on at. -/
def windowBytes : Nat := 64

/-- Up to the `ret`. -/
def setjmpOps (ptr : Word) : List X86.Op :=
  [.load .rax (.sym ptr),
    .store (.at .rax 0x00) .rbx,
    .store (.at .rax 0x08) .rbp,
    .store (.at .rax 0x10) .r12,
    .store (.at .rax 0x18) .r13,
    .store (.at .rax 0x20) .r14,
    .store (.at .rax 0x28) .r15,
    .lea .rcx (.at .rsp 8),
    .store (.at .rax 0x30) .rcx,
    .load .rcx (.at .rsp 0),
    .store (.at .rax 0x38) .rcx,
    .xor32 .rax .rax]

def celhyperSetjmp (ptr : Word) : List Instr := (setjmpOps ptr).map .op ++ [.ret]

/-- Up to the `jnz`. -/
def longjmpOps (ptr : Word) : List X86.Op :=
  [.load .rax (.sym ptr),
    .load .rbx (.at .rax 0x00),
    .load .rbp (.at .rax 0x08),
    .load .r12 (.at .rax 0x10),
    .load .r13 (.at .rax 0x18),
    .load .r14 (.at .rax 0x20),
    .load .r15 (.at .rax 0x28),
    .load .rsp (.at .rax 0x30),
    .load .rcx (.at .rax 0x38),
    .mov .rax .rdi,
    .test .rax .rax]

/-- Up to the label `1`, which is at `one`. -/
def celhyperLongjmp (ptr one : Word) : List Instr :=
  (longjmpOps ptr).map .op ++ [.jnz one, .op (.movImm .rax 1)]

/-- From the label on. -/
def celhyperLongjmpOne : List Instr := [.op .cld, .jmpReg .rcx]

/-- Where the linker has put the routines and the cell. -/
structure Linked (code : Code) where
  setjmp : Word
  longjmp : Word
  ptr : Word
  one : Word
  setjmpEnd : Word
  longjmpEnd : Word
  setjmpCode : Placed code setjmp (celhyperSetjmp ptr) setjmpEnd
  longjmpCode : Placed code longjmp (celhyperLongjmp ptr one) one
  oneCode : Placed code one celhyperLongjmpOne longjmpEnd

/-- The routines assembled one after the other, as they stand in the source, with more code after them. -/
def linkedAt (a ptr : Word) (post : List Instr) :
    Linked (assemble a (celhyperSetjmp ptr ++ celhyperLongjmp ptr (a + 26) ++ celhyperLongjmpOne ++ post)) where
  setjmp := a
  longjmp := a + 13
  ptr := ptr
  one := a + 26
  setjmpEnd := a + 13
  longjmpEnd := a + 28
  setjmpCode := by
    have h := placed_assemble a [] (celhyperSetjmp ptr) (celhyperLongjmp ptr (a + 26) ++ (celhyperLongjmpOne ++ post))
      (BitVec.add_zero a).symm (by change 0 + 13 < 2 ^ 64; decide)
    rwa [List.nil_append, ← List.append_assoc, ← List.append_assoc] at h
  longjmpCode := by
    have h := placed_assemble a (celhyperSetjmp ptr) (celhyperLongjmp ptr (a + 26)) (celhyperLongjmpOne ++ post)
      (b := a + 13) rfl (by change 13 + 13 < 2 ^ 64; decide)
    have hend : a + 13 + BitVec.ofNat 64 (celhyperLongjmp ptr (a + 26)).length = a + 26 := BitVec.add_assoc a 13 13
    rwa [hend, ← List.append_assoc] at h
  oneCode := by
    have h := placed_assemble a (celhyperSetjmp ptr ++ celhyperLongjmp ptr (a + 26)) celhyperLongjmpOne post
      (b := a + 26) rfl (by change 26 + 2 < 2 ^ 64; decide)
    have hend : a + 26 + BitVec.ofNat 64 celhyperLongjmpOne.length = a + 28 := BitVec.add_assoc a 26 2
    rwa [hend] at h

/-- The registers that a callee keeps. -/
def calleeSaved : List Reg := [.rbx, .rbp, .r12, .r13, .r14, .r15]

/-! ## The window -/

/-- What a window holds, slot by slot. -/
def window (regs : Reg → Word) (rsp rip : Word) : List Word :=
  [regs .rbx, regs .rbp, regs .r12, regs .r13, regs .r14, regs .r15, rsp, rip]

/-- Writing a window leaves everything apart from it. -/
theorem agree_window {b buf : Word} {n : Nat} (h : Apart b n buf windowBytes) (m : Memory) (regs : Reg → Word)
    (rsp rip : Word) : X86.Agree b n (m.storeAll buf (window regs rsp rip)) m :=
  Memory.agree_storeAll (by simp [window]) h

variable (cpu : Cpu) {code : Code}

theorem setjmp_regs (ptr : Word) (s : Data) (r : Reg) :
    (applyAll cpu (setjmpOps ptr) s).regs r =
      if r = .rax then 0 else if r = .rcx then (applyAll cpu (setjmpOps ptr) s).regs .rcx else s.regs r := by
  cases r <;> simp [applyAll, setjmpOps, Op.apply]

theorem setjmp_mem {ptr buf : Word} {s : Data} (hptr : s.mem.load ptr = buf) (hstack : Apart (s.regs .rsp) 8 buf windowBytes) :
    (applyAll cpu (setjmpOps ptr) s).mem = s.mem.storeAll buf (window s.regs (s.regs .rsp + 8) (s.mem.load (s.regs .rsp))) := by
  -- the return address is read after seven slots are written
  have hret : (s.mem.storeAll buf [s.regs .rbx, s.regs .rbp, s.regs .r12, s.regs .r13, s.regs .r14, s.regs .r15,
      s.regs .rsp + 8]).load (s.regs .rsp) = s.mem.load (s.regs .rsp) := by
    refine Memory.load_congr (Memory.agree_storeAll (by simp) (fun x hx hx' => hstack x hx ?_))
    exact Nat.lt_of_lt_of_le hx' (by simp [windowBytes])
  simp only [Memory.storeAll, BitVec.ofNat_eq_ofNat, BitVec.add_assoc, BitVec.reduceAdd] at hret
  simp only [applyAll, setjmpOps, List.foldl_cons, List.foldl_nil, Op.apply, Ref.addr_at, Ref.addr_sym, Data.set_regs,
    Data.write_regs, Data.set_mem, Data.write_mem, hptr, reduceCtorEq, if_true, if_false, window, Memory.storeAll,
    BitVec.ofNat_eq_ofNat, BitVec.add_assoc, BitVec.reduceAdd, BitVec.add_zero, hret]

/-- A memory from which `longjmp` finds a window: its cell says where the window is, and this is what it holds. -/
structure Armed (l : Linked code) (m : Memory) (buf : Word) (regs : Reg → Word) (rsp rip : Word) : Prop where
  cell : m.load l.ptr = buf
  held : m.Holds buf (window regs rsp rip)

theorem Armed.congr {l : Linked code} {m m' : Memory} {buf rsp rip : Word} {regs : Reg → Word}
    (h : Armed l m buf regs rsp rip) (hbuf : X86.Agree buf windowBytes m' m) (hcell : X86.Agree l.ptr 8 m' m) :
    Armed l m' buf regs rsp rip :=
  ⟨(Memory.load_congr hcell).trans h.cell, h.held.congr (by simp [window]) hbuf⟩

/-- What `setjmp` leaves: zero in `rax`, and everything else a caller relies on as it was. -/
structure Returned (buf : Word) (s t : Data) : Prop where
  rax : t.regs .rax = 0
  rsp : t.regs .rsp = s.regs .rsp + 8
  saved : ∀ r ∈ calleeSaved, t.regs r = s.regs r
  frame : ∀ x, ¬ Within buf windowBytes x → t.mem x = s.mem x

/-- **`setjmp` returns to its caller and leaves an armed memory.** -/
theorem reaches_setjmp (l : Linked code) {buf : Word} {s : Data} (hptr : s.mem.load l.ptr = buf)
    (hstack : Apart (s.regs .rsp) 8 buf windowBytes) (hcell : Apart l.ptr 8 buf windowBytes) :
    ∃ t : Data, Reaches cpu code ⟨s, l.setjmp⟩ ⟨t, s.mem.load (s.regs .rsp)⟩ ∧ Returned buf s t ∧
      Armed l t.mem buf s.regs (s.regs .rsp + 8) (s.mem.load (s.regs .rsp)) := by
  obtain ⟨mid, hops, hret⟩ := placed_append.1 l.setjmpCode
  have hmem := setjmp_mem cpu hptr hstack
  have hregs := setjmp_regs cpu l.ptr s
  have hreach : Reaches cpu code ⟨s, l.setjmp⟩ ⟨applyAll cpu (setjmpOps l.ptr) s, mid⟩ := reaches_applyAll hops s
  generalize applyAll cpu (setjmpOps l.ptr) s = u at hmem hregs hreach
  have hrsp : u.regs .rsp = s.regs .rsp := hregs .rsp
  have hload : u.mem.load (s.regs .rsp) = s.mem.load (s.regs .rsp) := by
    rw [hmem]
    exact Memory.load_congr (agree_window hstack _ _ _ _)
  have hret' : Reaches cpu code ⟨u, mid⟩ ⟨u.set .rsp (s.regs .rsp + 8), s.mem.load (s.regs .rsp)⟩ := by
    refine reaches_exec hret (fun next _ => ?_)
    rw [Instr.exec, hrsp, hload]
  refine ⟨_, hreach.trans hret', ⟨?_, ?_, ?_, ?_⟩, ⟨?_, ?_⟩⟩
  · rw [Data.set_regs, if_neg (by decide), hregs, if_pos rfl]
  · rw [Data.set_regs, if_pos rfl]
  · intro r hr
    have hne : r ≠ .rsp ∧ r ≠ .rax ∧ r ≠ .rcx := by
      refine ⟨?_, ?_, ?_⟩ <;> (rintro rfl; exact absurd hr (by decide))
    rw [Data.set_regs, if_neg hne.1, hregs, if_neg hne.2.1, if_neg hne.2.2]
  · intro x hx
    rw [Data.set_mem, hmem]
    exact Memory.storeAll_of_outside (by simp [window]) hx
  · rw [Data.set_mem, hmem, Memory.load_congr (agree_window hcell _ _ _ _), hptr]
  · rw [Data.set_mem, hmem]
    exact Memory.holds_storeAll (by simp [window])

/-- What the loads of `longjmp` make of the registers and of the zero flag. -/
structure Restored (regs : Reg → Word) (rsp rip : Word) (t u : Data) : Prop where
  mem : u.mem = t.mem
  rax : u.regs .rax = t.regs .rdi
  rcx : u.regs .rcx = rip
  rsp : u.regs .rsp = rsp
  saved : ∀ r ∈ calleeSaved, u.regs r = regs r
  zero : u.rflags.getLsbD flagZero = decide (t.regs .rdi = 0)

theorem longjmp_ops {ptr buf rsp rip : Word} {regs : Reg → Word} {t : Data} (hptr : t.mem.load ptr = buf)
    (h : t.mem.Holds buf (window regs rsp rip)) : Restored regs rsp rip t (applyAll cpu (longjmpOps ptr) t) := by
  have hslot : ∀ i (hi : i < 8), t.mem.load (buf + BitVec.ofNat 64 (8 * i)) = (window regs rsp rip)[i] := h
  have h0 := hslot 0 (by decide)
  have h1 := hslot 1 (by decide)
  have h2 := hslot 2 (by decide)
  have h3 := hslot 3 (by decide)
  have h4 := hslot 4 (by decide)
  have h5 := hslot 5 (by decide)
  have h6 := hslot 6 (by decide)
  have h7 := hslot 7 (by decide)
  simp only [window, List.getElem_cons_zero, List.getElem_cons_succ, Nat.reduceMul, BitVec.add_zero] at h0 h1 h2 h3 h4 h5 h6 h7
  constructor
  · rfl
  · simp [applyAll, longjmpOps, Op.apply]
  · simp [applyAll, longjmpOps, Op.apply, hptr, h7]
  · simp [applyAll, longjmpOps, Op.apply, hptr, h6]
  · simp [applyAll, longjmpOps, Op.apply, calleeSaved, hptr, h0, h1, h2, h3, h4, h5]
  · simp only [applyAll, longjmpOps, List.foldl_cons, List.foldl_nil, Op.apply, Cpu.logicFlags_zero, Data.set_regs,
      reduceCtorEq, if_true, if_false, BitVec.and_self]

/-- What `longjmp` leaves: the registers of the window, and its argument in `rax`, or one for zero. -/
structure Resumed (regs : Reg → Word) (rsp : Word) (t u : Data) : Prop where
  rax : u.regs .rax = if t.regs .rdi = 0 then 1 else t.regs .rdi
  rsp : u.regs .rsp = rsp
  saved : ∀ r ∈ calleeSaved, u.regs r = regs r
  mem : u.mem = t.mem
  direction : u.rflags.getLsbD flagDirection = false

/-- **`longjmp` goes on where the window says.** -/
theorem reaches_longjmp (l : Linked code) {buf rsp rip : Word} {regs : Reg → Word} {t : Data}
    (h : Armed l t.mem buf regs rsp rip) :
    ∃ u : Data, Reaches cpu code ⟨t, l.longjmp⟩ ⟨u, rip⟩ ∧ Resumed regs rsp t u := by
  obtain ⟨mid, hops, hjnz⟩ := placed_append.1 l.longjmpCode
  have hres := longjmp_ops cpu h.cell h.held
  have hpre : Reaches cpu code ⟨t, l.longjmp⟩ ⟨applyAll cpu (longjmpOps l.ptr) t, mid⟩ := reaches_applyAll hops t
  generalize applyAll cpu (longjmpOps l.ptr) t = u at hres hpre
  -- the tail from the label on, at any state that comes there
  have htail : ∀ v : Data, v.regs .rcx = rip →
      Reaches cpu code ⟨v, l.one⟩ ⟨{ v with rflags := setFlag flagDirection false v.rflags }, rip⟩ := by
    intro v hv
    obtain ⟨next, hcld, hjmp⟩ := l.oneCode
    refine .head (t := ⟨Op.cld.apply cpu v, next⟩) ?_ (reaches_exec hjmp (fun _ _ => ?_))
    · rw [X86.step, hcld]
      rfl
    · rw [← hv]
      rfl
  have hcld : ∀ f : Word, (setFlag flagDirection false f).getLsbD flagDirection = false := by
    intro f
    rw [getLsbD_setFlag, if_pos ⟨rfl, by decide⟩]
  by_cases hzero : t.regs .rdi = 0
  · -- the jump is not taken, and `rax` becomes one
    obtain ⟨next, hjump, after, hmov, rfl⟩ := hjnz
    have hfall : X86.step cpu code ⟨u, mid⟩ =
        some ⟨u, next⟩ := by
      rw [X86.step, hjump, Option.bind_some, Instr.exec, hres.zero, decide_eq_true hzero]
      rfl
    have hset : X86.step cpu code ⟨u, next⟩ =
        some ⟨u.set .rax 1, l.one⟩ := by
      rw [X86.step, hmov]
      rfl
    refine ⟨_, hpre.trans (.head hfall (.head hset (htail _ ?_))), ?_, ?_, ?_, hres.mem, hcld _⟩
    · rw [Data.set_regs, if_neg (by decide), hres.rcx]
    · rw [Data.set_regs, if_pos rfl, if_pos hzero]
    · rw [Data.set_regs, if_neg (by decide), hres.rsp]
    · intro r hr
      have hne : r ≠ .rax := by
        rintro rfl
        exact absurd hr (by decide)
      rw [Data.set_regs, if_neg hne, hres.saved r hr]
  · have hjump : Reaches cpu code ⟨u, mid⟩ ⟨u, l.one⟩ := by
      refine reaches_exec hjnz (fun next _ => ?_)
      rw [Instr.exec, hres.zero, decide_eq_false hzero]
      rfl
    refine ⟨_, hpre.trans (hjump.trans (htail _ hres.rcx)), ?_, hres.rsp, hres.saved, hres.mem, hcld _⟩
    rw [if_neg hzero]
    exact hres.rax

/-- **The way back.**  A call of `setjmp` returns zero, with the registers that a callee keeps as they were and the memory
as it was but for the buffer.  From any state reached after it in which the buffer and its cell are still the same,
`longjmp` returns from that same call once more: to the same place, with the same stack pointer and the same registers that
a callee keeps, and with its own argument as the result, or one for zero. -/
theorem longjmp_resumes (l : Linked code) (buf : Word) (s : Data) (hptr : s.mem.load l.ptr = buf)
    (hstack : Apart (s.regs .rsp) 8 buf windowBytes) (hcell : Apart l.ptr 8 buf windowBytes) :
    ∃ s₁ : Data, Reaches cpu code ⟨s, l.setjmp⟩ ⟨s₁, s.mem.load (s.regs .rsp)⟩ ∧ Returned buf s s₁ ∧
      ∀ t : Data, X86.Agree buf windowBytes t.mem s₁.mem → X86.Agree l.ptr 8 t.mem s₁.mem →
        ∃ u : Data, Reaches cpu code ⟨t, l.longjmp⟩ ⟨u, s.mem.load (s.regs .rsp)⟩ ∧
          Resumed s₁.regs (s₁.regs .rsp) t u := by
  obtain ⟨s₁, hreach, hreturned, harmed⟩ := reaches_setjmp cpu l hptr hstack hcell
  refine ⟨s₁, hreach, hreturned, fun t hbuf hcell' => ?_⟩
  obtain ⟨u, hreach', hres⟩ := reaches_longjmp cpu l (harmed.congr hbuf hcell')
  exact ⟨u, hreach', hres.rax, hres.rsp.trans hreturned.rsp.symm,
    fun r hr => (hres.saved r hr).trans (hreturned.saved r hr).symm, hres.mem, hres.direction⟩

/-- A caller with its stack at `0x8000`, the buffer at `0x2000` and its cell at `0x1000`. -/
def sampleCaller : Data :=
  ⟨fun r => if r = .rsp then 0x8000 else 7, 2, Memory.store (fun _ => 0) 0x1000 0x2000⟩

def sampleCode : Code :=
  assemble 0x400000 (celhyperSetjmp 0x1000 ++ celhyperLongjmp 0x1000 0x40001A ++ celhyperLongjmpOne ++ [])

/-- It calls `setjmp`, and a `longjmp` with 12 from the state it returns in gives 12. -/
theorem longjmp_resumes_twelve : ∃ s₁ u : Data,
    Reaches ⟨fun _ => false⟩ sampleCode ⟨sampleCaller, 0x400000⟩ ⟨s₁, sampleCaller.mem.load 0x8000⟩ ∧ s₁.regs .rax = 0 ∧
      Reaches ⟨fun _ => false⟩ sampleCode ⟨s₁.set .rdi 12, 0x40000D⟩ ⟨u, sampleCaller.mem.load 0x8000⟩ ∧
      u.regs .rax = 12 ∧ u.regs .rsp = s₁.regs .rsp := by
  have hsp : sampleCaller.regs .rsp = 0x8000 := rfl
  obtain ⟨s₁, hreach, hret, hback⟩ :=
    longjmp_resumes ⟨fun _ => false⟩ (linkedAt 0x400000 0x1000 []) 0x2000 sampleCaller (Memory.load_store_self _ _ _)
      (by rw [hsp]; intro x hx hx'; unfold Within windowBytes at *; bv_omega)
      (by change Apart 0x1000 8 _ _; intro x hx hx'; unfold Within windowBytes at *; bv_omega)
  obtain ⟨u, hreach', hres⟩ := hback (s₁.set .rdi 12) (fun _ _ => rfl) (fun _ _ => rfl)
  exact ⟨s₁, u, hreach, hret.rax, hreach', hres.rax, hres.rsp⟩

end Jmp

end Celium
