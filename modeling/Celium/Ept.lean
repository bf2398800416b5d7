import Celium.Wire
import Celium.Lib.Bytes
import Celium.Lib.Walk
/-!
# Ept — the tables of guest-physical memory

`Ept::new`, `map_4k` and `translate` of the hypervisor's `mm`.  The frames of the tables come from a `FrameProvider`, which
also reads and writes their entries.  The counters of `metrics` are left out.
-/
namespace Celium

/-- `x86_64::PhysAddr`: the upper twelve bits are never set. -/
structure PhysAddr where
  addr : Nat
  lt : addr < 2 ^ 52
deriving DecidableEq, Repr

namespace Ept

def pageSize : Nat := 4096

/-- `ADDR_MASK`: bits 12 to 51. -/
def addrMask : Nat := 0x000FFFFFFFFFF000

def nonLeafRwx : Nat := 0b111

/-- `EptFlags`: a `u64`, in which the type holds bits without a name too. -/
structure EptFlags where
  bits : Nat
  lt : bits < 2 ^ 64
deriving DecidableEq, Repr

/-- No bit but those with a name. -/
def EptFlags.Declared (flags : EptFlags) : Prop := flags.bits &&& 0b1110111 = flags.bits

instance (flags : EptFlags) : Decidable flags.Declared := inferInstanceAs (Decidable (_ = _))

/-- An index into a table of 512 entries. -/
abbrev Index := Fin 512

end Ept

open Ept

/-- `trait FrameProvider`, its state passed along. -/
structure FrameProvider (σ : Type) where
  allocZeroed : σ → HyperResult PhysAddr × σ
  readEntry : σ → PhysAddr → Index → Nat
  writeEntry : σ → PhysAddr → Index → Nat → σ

/-- What the walker expects of a provider, in its valid states: a frame that it hands out is fresh, zeroed, page-aligned and
not frame 0, and the frames that it has handed out are memory. -/
structure FrameProvider.Contract {σ : Type} (P : FrameProvider σ) where
  valid : σ → Prop
  owned : σ → PhysAddr → Prop
  alloc_valid : ∀ {s r s'}, valid s → P.allocZeroed s = (r, s') → valid s'
  alloc_owned : ∀ {s r s'}, valid s → P.allocZeroed s = (r, s') → ∀ a, owned s a → owned s' a
  alloc_same : ∀ {s r s'}, valid s → P.allocZeroed s = (r, s') → ∀ a, owned s a → ∀ i, P.readEntry s' a i = P.readEntry s a i
  alloc_frame : ∀ {s a s'}, valid s → P.allocZeroed s = (.ok a, s') → a.addr ≠ 0 ∧ a.addr % pageSize = 0
  alloc_fresh : ∀ {s a s'}, valid s → P.allocZeroed s = (.ok a, s') → ¬ owned s a ∧ owned s' a
  alloc_zero : ∀ {s a s'}, valid s → P.allocZeroed s = (.ok a, s') → ∀ i, P.readEntry s' a i = 0
  write_valid : ∀ {s a}, valid s → owned s a → ∀ i v, v < 2 ^ 64 → valid (P.writeEntry s a i v)
  write_owned : ∀ {s a}, valid s → owned s a → ∀ i v, v < 2 ^ 64 → ∀ b, owned (P.writeEntry s a i v) b ↔ owned s b
  write_self : ∀ {s a}, valid s → owned s a → ∀ i v, v < 2 ^ 64 → P.readEntry (P.writeEntry s a i v) a i = v
  write_other : ∀ {s a}, valid s → owned s a → ∀ i v, v < 2 ^ 64 → ∀ b, owned s b → ∀ j, (b, j) ≠ (a, i) →
    P.readEntry (P.writeEntry s a i v) b j = P.readEntry s b j

/-- `Ept`: the frame of the top table. -/
structure Ept where
  pml4 : PhysAddr
deriving DecidableEq, Repr

namespace Ept

def entryIsPresent (entry : Nat) : Prop := entry &&& 0b111 ≠ 0

instance (entry : Nat) : Decidable (entryIsPresent entry) := inferInstanceAs (Decidable (_ ≠ _))

/-- `PhysAddr::new(entry & ADDR_MASK)`. -/
def entryAddr (entry : Nat) : PhysAddr :=
  ⟨entry &&& addrMask, Nat.lt_of_le_of_lt Nat.and_le_right (by decide)⟩

/-- `(a & 0x1FF) as usize`. -/
def index (a : Nat) : Index := ⟨a &&& 0x1FF, Nat.lt_of_le_of_lt Nat.and_le_right (by decide)⟩

/-- Of PT, PD, PDPT and PML4. -/
def eptIndices (gpa : PhysAddr) : List Index :=
  [index (gpa.addr >>> 12), index (gpa.addr >>> 21), index (gpa.addr >>> 30), index (gpa.addr >>> 39)]

/-- The indices of the loops over `(1..=3).rev()`. -/
def tablePath (gpa : PhysAddr) : List Index := (eptIndices gpa).tail.reverse

/-- `idx[0]`. -/
def leafIndex (gpa : PhysAddr) : Index := (eptIndices gpa).head (List.cons_ne_nil _ _)

section Walker

variable {σ : Type} (P : FrameProvider σ)

def new (s : σ) : HyperResult Ept × σ :=
  match P.allocZeroed s with
  | (.ok pml4, s') => (.ok ⟨pml4⟩, s')
  | (.error e, s') => (.error e, s')

/-- The loop of `map_4k`: from `table` down, allocating as it goes. -/
def descend : σ → PhysAddr → List Index → HyperResult PhysAddr × σ
  | s, table, [] => (.ok table, s)
  | s, table, i :: path =>
    let entry := P.readEntry s table i
    if entryIsPresent entry then descend s (entryAddr entry) path
    else
      match P.allocZeroed s with
      | (.error e, s') => (.error e, s')
      | (.ok newTable, s') => descend (P.writeEntry s' table i (newTable.addr ||| nonLeafRwx)) newTable path

def leafEntry (hpa : PhysAddr) (flags : EptFlags) : Nat := hpa.addr &&& addrMask ||| flags.bits

def map4k (e : Ept) (s : σ) (gpa hpa : PhysAddr) (flags : EptFlags) : HyperResult Unit × σ :=
  if gpa.addr &&& 0xFFF ≠ 0 ∨ hpa.addr &&& 0xFFF ≠ 0 then (.error (.hardware "ept::map_4k: misaligned GPA or HPA"), s)
  else if flags.bits &&& 0b111 = 0 then (.error (.hardware "ept::map_4k: leaf must grant some access"), s)
  else
    match descend P s e.pml4 (tablePath gpa) with
    | (.error err, s') => (.error err, s')
    | (.ok table, s') => (.ok (), P.writeEntry s' table (leafIndex gpa) (leafEntry hpa flags))

/-- The loop of `translate`. -/
def walkDown (s : σ) : PhysAddr → List Index → HyperResult PhysAddr
  | table, [] => .ok table
  | table, i :: path =>
    let entry := P.readEntry s table i
    if entryIsPresent entry then walkDown s (entryAddr entry) path
    else .error (.hardware "ept::translate: walk hit absent non-leaf")

/-- `PhysAddr::new((leaf & ADDR_MASK) | off)`. -/
def leafAddr (leaf : Nat) (gpa : PhysAddr) : PhysAddr :=
  ⟨leaf &&& addrMask ||| gpa.addr &&& 0xFFF,
    Nat.or_lt_two_pow (Nat.lt_of_le_of_lt Nat.and_le_right (by decide)) (Nat.lt_of_le_of_lt Nat.and_le_right (by decide))⟩

def translate (e : Ept) (s : σ) (gpa : PhysAddr) : HyperResult PhysAddr := do
  let table ← walkDown P s e.pml4 (tablePath gpa)
  let leaf := P.readEntry s table (leafIndex gpa)
  if leaf &&& 0b111 = 0 then .error (.hardware "ept::translate: leaf absent")
  else .ok (leafAddr leaf gpa)

/-! ## The frame pool -/

def poolPages : Nat := 4096

/-- `FRAME_POOL`, which is at `base`, and `FRAME_NEXT`. -/
structure KernelFrames where
  base : PhysAddr
  next : Nat
  mem : PhysAddr → Index → Nat
  aligned : base.addr % pageSize = 0
  nonzero : base.addr ≠ 0
  fits : base.addr + poolPages * pageSize ≤ 2 ^ 52

/-- `impl FrameProvider for KernelFrames`.  That the counter is a machine word is left out: it would take `2^52` calls to
wrap it. -/
def kernelFrames : FrameProvider KernelFrames where
  allocZeroed s :=
    if h : s.next + pageSize > poolPages * pageSize then
      (.error (.exhausted "frame pool"), { s with next := s.next + pageSize })
    else
      (.ok ⟨s.base.addr + s.next, by have := s.fits; simp only [pageSize, poolPages] at *; omega⟩,
        { s with next := s.next + pageSize })
  readEntry s pa i := s.mem pa i
  writeEntry s pa i v := { s with mem := fun a j => if (a, j) = (pa, i) then v else s.mem a j }

/-! ## Runs -/

/-- The arguments of a `map_4k`. -/
structure MapCall where
  gpa : PhysAddr
  hpa : PhysAddr
  flags : EptFlags

/-- A sequence of `map_4k` calls: each with its result, and the state at the end. -/
def mapAll (e : Ept) : σ → List MapCall → List (MapCall × HyperResult Unit) × σ
  | s, [] => ([], s)
  | s, c :: calls =>
    let (r, s') := e.map4k P s c.gpa c.hpa c.flags
    let (results, s'') := mapAll e s' calls
    ((c, r) :: results, s'')

/-- The last call that succeeded for a guest page. -/
def lastCall (results : List (MapCall × HyperResult Unit)) (page : Nat) : Option MapCall :=
  (results.filter fun c => c.2 = .ok () ∧ c.1.gpa.addr / pageSize = page).getLast?.map fun c => c.1

/-- The host page of that call. -/
def lastMapped (results : List (MapCall × HyperResult Unit)) (page : Nat) : Option PhysAddr :=
  (lastCall results page).map fun c => c.hpa

/-- The flags set no bit of the address field that the host page does not have. -/
def MapCall.Fits (c : MapCall) : Prop := c.hpa.addr ||| (c.flags.bits &&& addrMask) = c.hpa.addr

end Walker

end Ept

end Celium
