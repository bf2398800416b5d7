import Celium.Lib.Bytes
import Celium.Lib.Checked
/-!
# Elf — the loader of the kernel image

`load_and_relocate` of the boot loader, over a 64-bit memory that is a function of the address.  The allocator is given the
number of pages and answers with the address of a region, or not.  An access outside that region ends the run, as does every
panic: what the machine would do next is not modelled.
-/
namespace Celium

open Bytes Checked

namespace Elf

inductive LoadError where
  | noLoadedImage
  | noFilesystem
  | notFound
  | truncated
  | notElf
  | badElf
  | allocFailed
  | io
deriving DecidableEq, Repr

/-- What ends a load: an error that it returns, a slice index out of range, a division by zero, or an access outside the
region. -/
inductive Stop where
  | returned (e : LoadError)
  | slice
  | divZero
  | wild
deriving DecidableEq, Repr

abbrev Load := Outcome Stop

/-- `return Err(e)`. -/
def fail {α : Type} (e : LoadError) : Load α := .error (.err (.returned e))

structure RelocatedImage where
  entry : Nat
  base : Nat
  size : Nat
deriving DecidableEq, Repr

def elfMagic : List UInt8 := [0x7F, 0x45, 0x4C, 0x46]

/-- `rd_u16`, `rd_u32` and `rd_u64`: a field of `w` bytes. -/
def rd (w : Nat) (b : List UInt8) (o : Nat) : Load Nat := do
  let e ← add64 o w
  if e ≤ b.length then .ok (leNat (slice b o w)) else .error (.err .slice)

def rdU16 : List UInt8 → Nat → Load Nat := rd 2
def rdU32 : List UInt8 → Nat → Load Nat := rd 4
def rdU64 : List UInt8 → Nat → Load Nat := rd 8

/-! ## Headers -/

structure Ehdr where
  entry : Nat
  phoff : Nat
  phentsize : Nat
  phnum : Nat
deriving DecidableEq, Repr

/-- The checks before the first pass. -/
def readEhdr (bytes : List UInt8) : Load Ehdr :=
  if bytes.length < 0x40 ∨ slice bytes 0 4 ≠ elfMagic then fail .notElf
  else if bytes.getD 4 0 ≠ 2 ∨ bytes.getD 5 0 ≠ 1 then fail .badElf
  else do
    let entry ← rdU64 bytes 0x18
    let phoff ← rdU64 bytes 0x20
    let phentsize ← rdU16 bytes 0x36
    let phnum ← rdU16 bytes 0x38
    if phentsize < 0x38 then fail .badElf
    else do
      let table ← mul64 phnum phentsize
      let tableEnd ← add64 phoff table
      if bytes.length < tableEnd then fail .badElf else .ok { entry, phoff, phentsize, phnum }

/-- `e_phoff + i * e_phentsize`. -/
def Ehdr.at (h : Ehdr) (i : Nat) : Load Nat := do
  let o ← mul64 i h.phentsize
  add64 h.phoff o

/-! ## First pass -/

/-- `vmin` and `vmax`. -/
structure Span where
  vmin : Nat
  vmax : Nat
deriving DecidableEq, Repr

def scanStep (bytes : List UInt8) (h : Ehdr) (v : Span) (i : Nat) : Load Span := do
  let o ← h.at i
  let ptype ← rdU32 bytes o
  if ptype ≠ 1 then .ok v
  else do
    let o₁ ← add64 o 0x10
    let vaddr ← rdU64 bytes o₁
    let o₂ ← add64 o 0x28
    let memsz ← rdU64 bytes o₂
    let vend ← add64 vaddr memsz
    .ok { vmin := if vaddr < v.vmin then vaddr else v.vmin, vmax := if v.vmax < vend then vend else v.vmax }

/-! ## The region -/

abbrev Mem := Nat → UInt8

/-- What the allocator gave: `pages * 4096` bytes from `base` on. -/
structure Region where
  base : Nat
  size : Nat
deriving DecidableEq, Repr

/-- A range of `n` bytes at `a` is inside. -/
def Region.Inside (r : Region) (a n : Nat) : Prop := n = 0 ∨ (r.base ≤ a ∧ a + n ≤ r.base + r.size)

instance (r : Region) (a n : Nat) : Decidable (r.Inside a n) := inferInstanceAs (Decidable (_ ∨ _))

/-- The access of `n` bytes at `a` that `k` makes. -/
def access {α : Type} (r : Region) (a n : Nat) (k : Load α) : Load α := if r.Inside a n then k else .error (.err .wild)

/-- `base.wrapping_sub(vmin)`. -/
def loadSlide (base vmin : Nat) : Nat := (base + (2 ^ 64 - vmin)) % 2 ^ 64

/-! ## Second pass -/

def copyStep (bytes : List UInt8) (h : Ehdr) (r : Region) (slide : Nat) (mem : Mem) (i : Nat) : Load Mem := do
  let o ← h.at i
  let ptype ← rdU32 bytes o
  if ptype ≠ 1 then .ok mem
  else do
    let o₁ ← add64 o 0x08
    let offset ← rdU64 bytes o₁
    let o₂ ← add64 o 0x10
    let vaddr ← rdU64 bytes o₂
    let o₃ ← add64 o 0x20
    let filesz ← rdU64 bytes o₃
    let fileEnd ← add64 offset filesz
    if bytes.length < fileEnd then fail .badElf
    else do
      let dst ← add64 slide vaddr
      access r dst filesz (.ok (place dst (slice bytes offset filesz) mem))

/-! ## Third pass -/

/-- `rela_addr`, `rela_size` and `rela_ent`. -/
structure Rela where
  addr : Nat
  size : Nat
  ent : Nat
deriving DecidableEq, Repr

def Rela.init : Rela := ⟨0, 0, 24⟩

/-- The `match` on a tag. -/
def Rela.take (rela : Rela) (tag val : Nat) : Rela :=
  if tag = 7 then { rela with addr := val }
  else if tag = 8 then { rela with size := val }
  else if tag = 9 then { rela with ent := val }
  else rela

/-- The loop over the dynamic section, with fuel for one turn more than the section has entries. -/
def dynScan (bytes : List UInt8) (dynOff dynSz : Nat) : Nat → Nat → Rela → Load Rela
  | 0, _, rela => .ok rela
  | fuel + 1, k, rela => do
    let k' ← add64 k 16
    if dynSz < k' then .ok rela
    else do
      let o ← add64 dynOff k
      let tag ← rdU64 bytes o
      let o' ← add64 o 8
      let val ← rdU64 bytes o'
      if tag = 0 then .ok rela else dynScan bytes dynOff dynSz fuel k' (rela.take tag val)

/-- `v.to_le_bytes()`. -/
def leBytes : Nat → Nat → List UInt8
  | 0, _ => []
  | w + 1, v => UInt8.ofNat (v % 256) :: leBytes w (v / 256)

def readWord (mem : Mem) (a : Nat) : Nat := leNat (window mem a 8)

/-- `load_slide + r_addend` on 64-bit words. -/
def relocValue (slide addend : Nat) : Nat := (slide + addend) % 2 ^ 64

/-- One relocation: the entry is read from the memory that the ones before it were applied to. -/
def relocStep (r : Region) (slide tableBase ent : Nat) (mem : Mem) (j : Nat) : Load Mem := do
  let o ← mul64 j ent
  let entry := tableBase + o
  access r entry 8 <| access r (entry + 8) 8 <| access r (entry + 16) 8 <|
    if readWord mem (entry + 8) % 2 ^ 32 = 8 then do
      let target ← add64 slide (readWord mem entry)
      access r target 8 (.ok (place target (leBytes 8 (relocValue slide (readWord mem (entry + 16)))) mem))
    else .ok mem

def relocate (r : Region) (slide : Nat) (rela : Rela) (mem : Mem) : Load Mem :=
  if rela.size = 0 then .ok mem
  else if rela.ent = 0 then .error (.err .divZero)
  else do
    let tableBase ← add64 slide rela.addr
    (List.range (rela.size / rela.ent)).foldlM (relocStep r slide tableBase rela.ent) mem

def dynStep (bytes : List UInt8) (h : Ehdr) (r : Region) (slide : Nat) (mem : Mem) (i : Nat) : Load Mem := do
  let o ← h.at i
  let ptype ← rdU32 bytes o
  if ptype ≠ 2 then .ok mem
  else do
    let o₁ ← add64 o 0x08
    let dynOff ← rdU64 bytes o₁
    let o₂ ← add64 o 0x20
    let dynSz ← rdU64 bytes o₂
    let rela ← dynScan bytes dynOff dynSz (dynSz / 16 + 1) 0 .init
    relocate r slide rela mem

/-! ## The loader -/

/-- From the allocated region on. -/
def fillRegion (bytes : List UInt8) (h : Ehdr) (v : Span) (r : Region) (mem : Mem) : Load (RelocatedImage × Mem) := do
  let mem := place r.base (List.replicate r.size 0) mem
  let slide := loadSlide r.base v.vmin
  let mem ← (List.range h.phnum).foldlM (copyStep bytes h r slide) mem
  let mem ← (List.range h.phnum).foldlM (dynStep bytes h r slide) mem
  let entry ← add64 slide h.entry
  .ok ({ entry, base := r.base, size := v.vmax - v.vmin }, mem)

/-- From the end of the first pass on. -/
def allocateRegion (bytes : List UInt8) (h : Ehdr) (v : Span) (alloc : Nat → Option Nat) (mem : Mem) :
    Load (RelocatedImage × Mem) :=
  if v.vmax = 0 ∨ v.vmin = 2 ^ 64 - 1 then fail .badElf
  else do
    let span ← sub64 v.vmax v.vmin
    let padded ← add64 span 0xFFF
    let pages := padded >>> 12
    match alloc pages with
    | none => fail .allocFailed
    | some base => do
      let size ← mul64 pages 0x1000
      fillRegion bytes h v ⟨base, size⟩ mem

/-- `load_and_relocate`, with the memory before and after. -/
def loadAndRelocate (bytes : List UInt8) (alloc : Nat → Option Nat) (mem : Mem) : Load (RelocatedImage × Mem) := do
  let h ← readEhdr bytes
  let v ← (List.range h.phnum).foldlM (scanStep bytes h) ⟨2 ^ 64 - 1, 0⟩
  allocateRegion bytes h v alloc mem

end Elf

end Celium
