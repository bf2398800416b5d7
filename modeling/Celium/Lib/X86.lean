import Mathlib.Algebra.GroupWithZero.Nat
import Mathlib.Logic.Function.Basic
import Mathlib.Logic.Relation
/-!
# X86 — the part of a 64-bit machine that hand-written entry code uses

Sixteen registers, a flat memory of bytes, and the instructions of routines that save and restore them.  Code stands apart
from memory: an address has an instruction and the address after it, so that lengths of encodings do not matter.  Flags that
an instruction leaves undefined are what the CPU makes of them.
-/
namespace X86

abbrev Word := BitVec 64

inductive Reg where
  | rax | rcx | rdx | rbx | rsp | rbp | rsi | rdi | r8 | r9 | r10 | r11 | r12 | r13 | r14 | r15
deriving DecidableEq, Repr

/-! ## Memory -/

abbrev Memory := Word → BitVec 8

namespace Memory

/-- The little-endian number in `n` bytes; addresses wrap. -/
def loadNat (m : Memory) : Word → Nat → Nat
  | _, 0 => 0
  | a, n + 1 => (m a).toNat + 256 * loadNat m (a + 1) n

def load (m : Memory) (a : Word) : Word := BitVec.ofNat 64 (m.loadNat a 8)

def store (m : Memory) (a v : Word) : Memory := fun x =>
  if (x - a).toNat < 8 then BitVec.ofNat 8 (v.toNat / 256 ^ (x - a).toNat) else m x

end Memory

/-- The `n` bytes from `a` on. -/
def Within (a : Word) (n : Nat) (x : Word) : Prop := (x - a).toNat < n

instance (a : Word) (n : Nat) (x : Word) : Decidable (Within a n x) := inferInstanceAs (Decidable (_ < _))

/-- No byte in common. -/
def Apart (a : Word) (n : Nat) (b : Word) (k : Nat) : Prop := ∀ x, Within a n x → ¬ Within b k x

/-- The same bytes in a range. -/
def Agree (a : Word) (n : Nat) (m m' : Memory) : Prop := ∀ x, Within a n x → m x = m' x

theorem Apart.symm {a b : Word} {n k : Nat} (h : Apart a n b k) : Apart b k a n := fun x hx hx' => h x hx' hx

theorem Agree.symm {a : Word} {n : Nat} {m m' : Memory} (h : Agree a n m m') : Agree a n m' m := fun x hx => (h x hx).symm

theorem Agree.trans {a : Word} {n : Nat} {m m' m'' : Memory} (h : Agree a n m m') (h' : Agree a n m' m'') :
    Agree a n m m'' := fun x hx => (h x hx).trans (h' x hx)

/-- A range inside another one. -/
def Inside (a : Word) (n : Nat) (b : Word) (k : Nat) : Prop := ∀ x, Within a n x → Within b k x

theorem inside_add {b : Word} {k off n : Nat} (h : off + n ≤ k) (hk : k < 2 ^ 64) :
    Inside (b + BitVec.ofNat 64 off) n b k := by
  intro x hx
  unfold Within at *
  bv_omega

theorem Apart.mono {a a' b b' : Word} {n n' k k' : Nat} (h : Apart a n b k) (ha : Inside a' n' a n)
    (hb : Inside b' k' b k) : Apart a' n' b' k' := fun x hx hx' => h x (ha x hx) (hb x hx')

theorem Agree.mono {a a' : Word} {n n' : Nat} {m m' : Memory} (h : Agree a n m m') (ha : Inside a' n' a n) :
    Agree a' n' m m' := fun x hx => h x (ha x hx)

theorem inside_refl (a : Word) (n : Nat) : Inside a n a n := fun _ hx => hx

namespace Memory

theorem loadNat_congr {m m' : Memory} {a : Word} {n : Nat} (h : Agree a n m m') (hn : n ≤ 8) :
    m.loadNat a n = m'.loadNat a n := by
  induction n generalizing a with
  | zero => rfl
  | succ n ih =>
    have hrest : Agree (a + 1) n m m' := by
      intro x hx
      refine h x ?_
      unfold Within at *
      bv_omega
    have hhead : Within a (n + 1) a := by
      unfold Within
      bv_omega
    rw [loadNat, loadNat, h a hhead, ih hrest (by omega)]

theorem load_congr {m m' : Memory} {a : Word} (h : Agree a 8 m m') : m.load a = m'.load a := by
  rw [load, load, loadNat_congr h (Nat.le_refl 8)]

/-- The bytes of a stored quadword from byte `k` on. -/
theorem loadNat_store (m : Memory) (a v : Word) : ∀ n k, k + n ≤ 8 →
    (m.store a v).loadNat (a + BitVec.ofNat 64 k) n = v.toNat / 256 ^ k % 256 ^ n
  | 0, k, _ => by rw [loadNat, Nat.pow_zero, Nat.mod_one]
  | n + 1, k, h => by
    have hoff : (a + BitVec.ofNat 64 k - a).toNat = k := by bv_omega
    have hnext : a + BitVec.ofNat 64 k + 1 = a + BitVec.ofNat 64 (k + 1) := by bv_omega
    have hbyte : (m.store a v (a + BitVec.ofNat 64 k)).toNat = v.toNat / 256 ^ k % 256 := by
      simp only [store, hoff]
      rw [if_pos (by omega), BitVec.toNat_ofNat]
    rw [loadNat, hnext, loadNat_store m a v n (k + 1) (by omega), hbyte, Nat.pow_succ, ← Nat.div_div_eq_div_mul,
      Nat.pow_succ', Nat.mod_mul]

theorem load_store_self (m : Memory) (a v : Word) : (m.store a v).load a = v := by
  have hload := loadNat_store m a v 8 0 (Nat.le_refl 8)
  have hzero : a + BitVec.ofNat 64 0 = a := BitVec.add_zero a
  rw [hzero, Nat.pow_zero, Nat.div_one] at hload
  have hpow : (256 : Nat) ^ 8 = 2 ^ 64 := by decide
  rw [load, hload, hpow, Nat.mod_eq_of_lt v.isLt, BitVec.ofNat_toNat, BitVec.setWidth_eq]

theorem store_of_outside {m : Memory} {a x : Word} (h : ¬ Within a 8 x) (v : Word) : m.store a v x = m x := if_neg h

theorem agree_store {m : Memory} {a b : Word} {n : Nat} (h : Apart a n b 8) (v : Word) : Agree a n (m.store b v) m :=
  fun _ hx => store_of_outside (h _ hx) v

theorem load_store_of_apart {m : Memory} {a b : Word} (h : Apart a 8 b 8) (v : Word) : (m.store b v).load a = m.load a :=
  load_congr (agree_store h v)

/-- Quadwords one after the other. -/
def storeAll (m : Memory) (a : Word) : List Word → Memory
  | [] => m
  | v :: vs => storeAll (m.store a v) (a + 8) vs

/-- What stands in memory from `a` on. -/
def Holds (m : Memory) (a : Word) (vs : List Word) : Prop :=
  ∀ i (h : i < vs.length), m.load (a + BitVec.ofNat 64 (8 * i)) = vs[i]

theorem agree_storeAll {b : Word} {n : Nat} : ∀ {vs : List Word} {m : Memory} {a : Word},
    8 * vs.length < 2 ^ 64 → Apart b n a (8 * vs.length) → Agree b n (m.storeAll a vs) m
  | [], _, _, _, _ => fun _ _ => rfl
  | v :: vs, m, a, hlen, h => by
    rw [List.length_cons] at hlen h
    have hhead : Apart b n a 8 := fun x hx hx' => h x hx (Nat.lt_of_lt_of_le hx' (by omega))
    have htail : Apart b n (a + 8) (8 * vs.length) := by
      intro x hx hx'
      refine h x hx ?_
      unfold Within at *
      bv_omega
    exact (agree_storeAll (by omega) htail).trans (agree_store hhead v)

theorem storeAll_of_outside {m : Memory} {a x : Word} {vs : List Word} (hlen : 8 * vs.length < 2 ^ 64)
    (h : ¬ Within a (8 * vs.length) x) : m.storeAll a vs x = m x := by
  have hone : Apart x 1 a (8 * vs.length) := by
    intro y hy hy'
    obtain rfl : y = x := by
      unfold Within at hy
      bv_omega
    exact h hy'
  exact agree_storeAll hlen hone x (by unfold Within; bv_omega)

/-- **What is stored is there.** -/
theorem holds_storeAll : ∀ {vs : List Word} {m : Memory} {a : Word}, 8 * vs.length < 2 ^ 64 → (m.storeAll a vs).Holds a vs
  | [], _, _, _, i, h => absurd h (Nat.not_lt_zero i)
  | v :: vs, m, a, hlen, i, h => by
    rw [List.length_cons] at hlen h
    cases i with
    | zero =>
      have hapart : Apart a 8 (a + 8) (8 * vs.length) := by
        intro x hx hx'
        unfold Within at *
        bv_omega
      have hzero : a + BitVec.ofNat 64 (8 * 0) = a := BitVec.add_zero a
      rw [hzero, List.getElem_cons_zero, storeAll, load_congr (agree_storeAll (by omega) hapart), load_store_self]
    | succ i =>
      have hnext : a + BitVec.ofNat 64 (8 * (i + 1)) = a + 8 + BitVec.ofNat 64 (8 * i) := by bv_omega
      rw [hnext, List.getElem_cons_succ]
      exact holds_storeAll (by omega) i (by omega)

theorem Holds.congr {m m' : Memory} {a : Word} {vs : List Word} (h : m.Holds a vs) (hlen : 8 * vs.length < 2 ^ 64)
    (hsame : Agree a (8 * vs.length) m' m) : m'.Holds a vs := by
  intro i hi
  rw [← h i hi]
  exact load_congr (hsame.mono (inside_add (by omega) hlen))

theorem Holds.concat {m : Memory} {a v : Word} {vs : List Word} (h : m.Holds a vs) (hlen : 8 * (vs.length + 1) < 2 ^ 64) :
    (m.store (a + BitVec.ofNat 64 (8 * vs.length)) v).Holds a (vs ++ [v]) := by
  intro i hi
  rw [List.length_append, List.length_singleton] at hi
  by_cases hlast : i = vs.length
  · subst hlast
    rw [List.getElem_concat_length rfl, load_store_self]
  · have hlt : i < vs.length := by omega
    have hapart : Apart (a + BitVec.ofNat 64 (8 * i)) 8 (a + BitVec.ofNat 64 (8 * vs.length)) 8 := by
      intro x hx hx'
      unfold Within at *
      bv_omega
    rw [List.getElem_append_left hlt, load_store_of_apart hapart, h i hlt]

end Memory

/-! ## The machine -/

/-- All but the instruction pointer. -/
structure Data where
  regs : Reg → Word
  rflags : Word
  mem : Memory

structure State extends Data where
  rip : Word

namespace Data

def set (s : Data) (r : Reg) (v : Word) : Data := { s with regs := Function.update s.regs r v }

def write (s : Data) (a v : Word) : Data := { s with mem := s.mem.store a v }

variable (s : Data) (r : Reg) (a v : Word)

@[simp] theorem set_regs (r' : Reg) : (s.set r v).regs r' = if r' = r then v else s.regs r' :=
  Function.update_apply s.regs r v r'

@[simp] theorem set_rflags : (s.set r v).rflags = s.rflags := rfl
@[simp] theorem set_mem : (s.set r v).mem = s.mem := rfl
@[simp] theorem write_regs : (s.write a v).regs = s.regs := rfl
@[simp] theorem write_rflags : (s.write a v).rflags = s.rflags := rfl
@[simp] theorem write_mem : (s.write a v).mem = s.mem.store a v := rfl

end Data

/-- An operand in memory: `[base + disp]`, or a symbol. -/
inductive Ref where
  | at (base : Reg) (disp : Word)
  | sym (a : Word)
deriving DecidableEq, Repr

def Ref.addr (s : Data) : Ref → Word
  | .at base disp => s.regs base + disp
  | .sym a => a

@[simp] theorem Ref.addr_at (s : Data) (base : Reg) (disp : Word) : (Ref.at base disp).addr s = s.regs base + disp := rfl
@[simp] theorem Ref.addr_sym (s : Data) (a : Word) : (Ref.sym a).addr s = a := rfl

/-- What runs on to the next instruction. -/
inductive Op where
  | mov (dst src : Reg)
  | movImm (dst : Reg) (v : Word)
  | load (dst : Reg) (src : Ref)
  | store (dst : Ref) (src : Reg)
  | lea (dst : Reg) (src : Ref)
  | push (src : Reg)
  | pop (dst : Ref)
  | pushfq
  | xor32 (dst src : Reg)
  | test (a b : Reg)
  | subImm (dst : Reg) (v : Word)
  | cld
  | cli
deriving DecidableEq, Repr

/-- Jumps and calls by the address of their label. -/
inductive Instr where
  | op (o : Op)
  | jnz (target : Word)
  | jmp (target : Word)
  | jmpReg (r : Reg)
  | call (target : Word)
  | ret
  | hlt
deriving DecidableEq, Repr

/-! ## Flags -/

def flagCarry : Nat := 0
def flagParity : Nat := 2
def flagAux : Nat := 4
def flagZero : Nat := 6
def flagSign : Nat := 7
def flagInterrupt : Nat := 9
def flagDirection : Nat := 10
def flagOverflow : Nat := 11

def setFlag (i : Nat) (b : Bool) (f : Word) : Word :=
  if b then f ||| BitVec.twoPow 64 i else f &&& ~~~ BitVec.twoPow 64 i

theorem getLsbD_setFlag (i j : Nat) (b : Bool) (f : Word) :
    (setFlag i b f).getLsbD j = if j = i ∧ j < 64 then b else f.getLsbD j := by
  unfold setFlag
  by_cases hj : j < 64
  · by_cases hij : j = i
    · subst hij
      cases b <;> simp [hj]
    · cases b <;> simp [hj, hij]
  · have hout : ¬ (j = i ∧ j < 64) := fun h => hj h.2
    rw [if_neg hout, BitVec.getLsbD_of_ge _ _ (Nat.not_lt.1 hj), BitVec.getLsbD_of_ge _ _ (Nat.not_lt.1 hj)]

def evenParity (v : BitVec 8) : Bool := (List.range 8).countP (fun i => v.getLsbD i) % 2 = 0

/-- What a CPU leaves in a flag that an instruction leaves undefined. -/
structure Cpu where
  undefined : Data → Bool

/-- The flags of a logical operation with a result of `w` bits. -/
def Cpu.logicFlags (cpu : Cpu) (s : Data) (w : Nat) (v : BitVec w) : Word :=
  setFlag flagCarry false <| setFlag flagOverflow false <| setFlag flagParity (evenParity (v.setWidth 8)) <|
    setFlag flagSign v.msb <| setFlag flagAux (cpu.undefined s) <| setFlag flagZero (v = 0) s.rflags

theorem Cpu.logicFlags_zero (cpu : Cpu) (s : Data) (w : Nat) (v : BitVec w) :
    (cpu.logicFlags s w v).getLsbD flagZero = decide (v = 0) := by
  unfold logicFlags
  rw [getLsbD_setFlag, if_neg (by decide), getLsbD_setFlag, if_neg (by decide), getLsbD_setFlag, if_neg (by decide),
    getLsbD_setFlag, if_neg (by decide), getLsbD_setFlag, if_neg (by decide), getLsbD_setFlag, if_pos (by decide)]

/-- The flags of `x - y`. -/
def subFlags (x y f : Word) : Word :=
  setFlag flagCarry (x.toNat < y.toNat) <|
    setFlag flagOverflow (x.msb != y.msb && (x - y).msb != x.msb) <|
    setFlag flagParity (evenParity ((x - y).setWidth 8)) <| setFlag flagSign (x - y).msb <|
    setFlag flagAux ((x.setWidth 4).toNat < (y.setWidth 4).toNat) <| setFlag flagZero (x - y = 0) f

/-! ## Steps -/

section Steps

variable (cpu : Cpu)

def Op.apply (s : Data) : Op → Data
  | .mov dst src => s.set dst (s.regs src)
  | .movImm dst v => s.set dst v
  | .load dst src => s.set dst (s.mem.load (src.addr s))
  | .store dst src => s.write (dst.addr s) (s.regs src)
  | .lea dst src => s.set dst (src.addr s)
  | .push src => (s.set .rsp (s.regs .rsp - 8)).write (s.regs .rsp - 8) (s.regs src)
  | .pop dst =>
    -- the address is taken after `rsp` has moved
    let t := s.set .rsp (s.regs .rsp + 8)
    t.write (dst.addr t) (s.mem.load (s.regs .rsp))
  | .pushfq =>
    -- RF and VM are stored as zero
    (s.set .rsp (s.regs .rsp - 8)).write (s.regs .rsp - 8) (s.rflags &&& 0xFCFFFF)
  | .xor32 dst src =>
    let v := (s.regs dst).setWidth 32 ^^^ (s.regs src).setWidth 32
    { s.set dst (v.setWidth 64) with rflags := cpu.logicFlags s 32 v }
  | .test a b => { s with rflags := cpu.logicFlags s 64 (s.regs a &&& s.regs b) }
  | .subImm dst v => { s.set dst (s.regs dst - v) with rflags := subFlags (s.regs dst) v s.rflags }
  | .cld => { s with rflags := setFlag flagDirection false s.rflags }
  | .cli => { s with rflags := setFlag flagInterrupt false s.rflags }

/-- One instruction, with the address after it; a `hlt` stops here. -/
def Instr.exec (s : State) (next : Word) : Instr → Option State
  | .op o => some ⟨o.apply cpu s.toData, next⟩
  | .jnz target => some { s with rip := if s.rflags.getLsbD flagZero then next else target }
  | .jmp target => some { s with rip := target }
  | .jmpReg r => some { s with rip := s.regs r }
  | .call target => some ⟨(s.set .rsp (s.regs .rsp - 8)).write (s.regs .rsp - 8) next, target⟩
  | .ret => some ⟨s.set .rsp (s.regs .rsp + 8), s.mem.load (s.regs .rsp)⟩
  | .hlt => none

/-- The instruction at an address, and the address after it. -/
abbrev Code := Word → Option (Instr × Word)

variable (code : Code)

def step (s : State) : Option State := (code s.rip).bind (fun p => p.1.exec cpu s p.2)

/-- A run of any number of steps. -/
def Reaches : State → State → Prop := Relation.ReflTransGen (fun s t => step cpu code s = some t)

/-- The instructions stand at `a`, one after the other, up to `b`. -/
def Placed : Word → List Instr → Word → Prop
  | a, [], b => a = b
  | a, i :: is, b => ∃ next, code a = some (i, next) ∧ Placed next is b

end Steps

variable {cpu : Cpu} {code : Code}

theorem Reaches.refl (s : State) : Reaches cpu code s s := Relation.ReflTransGen.refl

theorem Reaches.trans {s t u : State} (h : Reaches cpu code s t) (h' : Reaches cpu code t u) : Reaches cpu code s u :=
  Relation.ReflTransGen.trans h h'

theorem Reaches.head {s t u : State} (h : step cpu code s = some t) (h' : Reaches cpu code t u) : Reaches cpu code s u :=
  Relation.ReflTransGen.head h h'

theorem Reaches.step {s t : State} (h : X86.step cpu code s = some t) : Reaches cpu code s t :=
  Relation.ReflTransGen.single h

theorem placed_append {a b : Word} {is js : List Instr} :
    Placed code a (is ++ js) b ↔ ∃ mid, Placed code a is mid ∧ Placed code mid js b := by
  induction is generalizing a with
  | nil =>
    constructor
    · exact fun h => ⟨a, rfl, h⟩
    · rintro ⟨mid, rfl, h⟩
      exact h
  | cons i is ih =>
    constructor
    · rintro ⟨next, hi, h⟩
      obtain ⟨mid, his, hjs⟩ := ih.1 h
      exact ⟨mid, ⟨next, hi, his⟩, hjs⟩
    · rintro ⟨mid, ⟨next, hi, his⟩, hjs⟩
      exact ⟨next, hi, ih.2 ⟨mid, his, hjs⟩⟩

/-- The instructions from `a` on, one address each. -/
def assemble (a : Word) (is : List Instr) : Code := fun x => is[(x - a).toNat]?.map (·, x + 1)

/-- **A part of assembled code is placed where the parts before it end.** -/
theorem placed_assemble (a : Word) (pre is post : List Instr) {b : Word} (hb : b = a + BitVec.ofNat 64 pre.length)
    (hlen : pre.length + is.length < 2 ^ 64) :
    Placed (assemble a (pre ++ is ++ post)) b is (b + BitVec.ofNat 64 is.length) := by
  induction is generalizing pre b with
  | nil =>
    change b = b + BitVec.ofNat 64 0
    bv_omega
  | cons i is ih =>
    rw [List.length_cons] at hlen
    have hoff : (b - a).toNat = pre.length := by
      subst hb
      bv_omega
    have hend : b + BitVec.ofNat 64 (i :: is).length = b + 1 + BitVec.ofNat 64 is.length := by
      rw [List.length_cons]
      bv_omega
    have hsplit : pre ++ i :: is ++ post = pre ++ [i] ++ is ++ post := by simp
    refine ⟨b + 1, ?_, ?_⟩
    · simp only [assemble, hoff]
      simp
    · rw [hend, hsplit]
      refine ih (pre ++ [i]) ?_ ?_
      · rw [List.length_append, List.length_singleton]
        subst hb
        bv_omega
      · rw [List.length_append, List.length_singleton]
        omega

/-- What a straight piece of code makes of a state. -/
def applyAll (cpu : Cpu) (ops : List Op) (s : Data) : Data := ops.foldl (Op.apply cpu) s

/-- **A straight piece of code runs to its end.** -/
theorem reaches_applyAll {ops : List Op} {a b : Word} (h : Placed code a (ops.map .op) b) (s : Data) :
    Reaches cpu code ⟨s, a⟩ ⟨applyAll cpu ops s, b⟩ := by
  induction ops generalizing a s with
  | nil =>
    obtain rfl : a = b := h
    exact .refl _
  | cons o ops ih =>
    obtain ⟨next, ho, hrest⟩ := h
    have hstep : step cpu code ⟨s, a⟩ = some ⟨o.apply cpu s, next⟩ := by
      rw [step, ho]
      rfl
    exact .head hstep (ih hrest (o.apply cpu s))

/-- One instruction at the head of placed code. -/
theorem reaches_exec {i : Instr} {is : List Instr} {a b : Word} {s : Data} {t : State}
    (h : Placed code a (i :: is) b) (hexec : ∀ next, Placed code next is b → i.exec cpu ⟨s, a⟩ next = some t) :
    Reaches cpu code ⟨s, a⟩ t := by
  obtain ⟨next, hi, hrest⟩ := h
  refine .step ?_
  rw [step, hi]
  exact hexec next hrest

end X86
