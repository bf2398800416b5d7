import Celium.StoreReach
/-!
# StoreAtomic — a failed call leaves the store as it was, but for one

Every operation validates before it mutates, with one exception: `create` takes the next id before it validates the
name, so a refused name costs an id.  `add_user` has the same two checks in the other order.
-/
namespace Celium

open Fixed Forest Runs

namespace StoreState

/-- A `create` that gets as far as the name, and whose name is refused. -/
def BadName (s : StoreState) : Op → Prop
  | .create spec rootCaps =>
    s.ParentGrants spec rootCaps ∧ s.nextTenantId + 1 ≤ u64Max ∧ validateSegment spec.name ≠ .ok ()
  | _ => False

variable {s : StoreState}

/-- A call succeeds, changes nothing, or is a `create` with a bad name. -/
theorem step_ok_or_same (cr : Crypto) (hwf : s.TreeWf) (op : Op) :
    (∃ r, (step cr s op).1 = .ok r) ∨ (step cr s op).2 = s ∨ s.BadName op := by
  cases op with
  | create spec rootCaps =>
    rcases s.create_cases spec rootCaps with ⟨e, he, -⟩ | ⟨e, he, hadm, hbad⟩ | ⟨t, s', he, -⟩
    · exact .inr (.inl (by simp only [step, answer_snd, he]))
    · exact .inr (.inr ⟨hadm.parent, hadm.room, hbad⟩)
    · exact .inl ⟨_, by simp only [step, answer, he]; rfl⟩
  | delete id =>
    rcases s.delete_cases id with ⟨e, he, -⟩ | ⟨t, s', he, -⟩
    · exact .inr (.inl (by simp only [step, answer_snd, he]))
    · exact .inl ⟨_, by simp only [step, answer, he]; rfl⟩
  | addUser tenant userName requestedCaps =>
    rcases s.addUser_cases tenant userName requestedCaps with ⟨e, he⟩ | ⟨t, u, s', he, -⟩
    · exact .inr (.inl (by simp only [step, answer_snd, he]))
    · exact .inl ⟨_, by simp only [step, answer, he]; rfl⟩
  | removeUser tenant user =>
    rcases s.removeUser_cases tenant user with ⟨e, he⟩ | ⟨t, s', he, -⟩
    · exact .inr (.inl (by simp only [step, answer_snd, he]))
    · exact .inl ⟨_, by simp only [step, answer, he]; rfl⟩
  | charge tenant c =>
    rcases s.charge_cases tenant c with ⟨e, he, -⟩ | ⟨chain, u, s', he, -⟩
    · exact .inr (.inl (by simp only [step, answer_snd, he]))
    · exact .inl ⟨_, by simp only [step, answer, he]; rfl⟩
  | release tenant c =>
    rcases s.release_cases tenant c with ⟨e, he, -⟩ | ⟨chain, u, s', he, -⟩
    · exact .inr (.inl (by simp only [step, answer_snd, he]))
    · exact .inl ⟨_, by simp only [step, answer, he]; rfl⟩
  | setPassword tenant user plain salt =>
    rcases s.setPassword_cases cr tenant user plain salt with ⟨e, he⟩ | ⟨t, i, hash, s', he, -⟩
    · exact .inr (.inl (by simp only [step, answer_snd, he]))
    · exact .inl ⟨_, by simp only [step, answer, he]; rfl⟩
  | createSession tenant user requestedCaps ttlSecs rand nowMs =>
    rcases s.createSession_cases cr tenant user requestedCaps ttlSecs rand nowMs with
      ⟨e, he⟩ | ⟨t, u, token, session, he, -⟩
    · exact .inr (.inl (by simp only [step, answer_snd, he]))
    · exact .inl ⟨_, by simp only [step, answer, he]; rfl⟩
  | revokeToken token => exact .inl ⟨_, rfl⟩
  | purgeExpiredSessions nowMs => exact .inl ⟨_, rfl⟩
  | revokeUserSessions tenant user =>
    simp only [step, answer, revokeUserSessions]
    split
    · exact .inr (.inl rfl)
    · exact .inl ⟨_, rfl⟩
  | revokeTenantSessions tenant =>
    simp only [step, answer, revokeTenantSessions]
    split
    · exact .inr (.inl rfl)
    · exact .inl ⟨_, rfl⟩
  | rotateRootCaps tenant newCaps =>
    rcases s.rotateRootCaps_cases tenant newCaps with ⟨e, he, -⟩ | ⟨t, report, s', he, -⟩
    · exact .inr (.inl (by simp only [step, answer_snd, he]))
    · exact .inl ⟨_, by simp only [step, answer, he]; rfl⟩
  | deleteTenantRecursive tenant ord =>
    rcases deleteTenantRecursive_cases hwf tenant ord with ⟨e, he, -⟩ | ⟨report, s', he, -⟩
    · exact .inr (.inl (by simp only [step, answer_snd, he]))
    · exact .inl ⟨_, by simp only [step, answer, he]; rfl⟩

/-- A bad name is never taken, so nothing stops the call before the counter moves. -/
theorem step_badName (cr : Crypto) (hwf : s.TreeWf) {op : Op} (h : s.BadName op) :
    (∃ e, (step cr s op).1 = .error e) ∧ (step cr s op).2 ≠ s := by
  cases op with
  | create spec rootCaps =>
    obtain ⟨hpar, hroom, hbad⟩ := h
    have hfresh : s.byName.lookup spec.name = none := by
      refine Option.eq_none_iff_forall_ne_some.2 fun i hi => ?_
      obtain ⟨t, ht, hn⟩ := (hwf.names spec.name i).1 hi
      exact hbad (by rw [← hn]; exact hwf.valid i t ht)
    rcases s.create_cases spec rootCaps with ⟨e, he, hno⟩ | ⟨e, he, -⟩ | ⟨t, s', he, -, hg, rfl⟩
    · exact absurd ⟨hfresh, hpar, hroom⟩ hno
    · refine ⟨⟨e, by simp only [step, answer, he]; rfl⟩, fun hs => ?_⟩
      simp only [step, answer_snd, he] at hs
      have := congrArg nextTenantId hs
      simp at this
    · exact absurd hg.valid hbad
  | _ => exact h.elim

end StoreState

/-- **In every reachable store a failed call changes nothing, unless it is a `create` with a bad name**, and then it
does. -/
theorem error_atomic_iff (cr : Crypto) (ops : List Op) (op : Op) :
    ((∃ e, (step cr (run (step cr) default ops) op).1 = .error e) →
      (step cr (run (step cr) default ops) op).2 = run (step cr) default ops) ↔
    ¬ (run (step cr) default ops).BadName op := by
  have hwf := run_treeWf cr ops
  constructor
  · intro h hbad
    obtain ⟨herr, hne⟩ := StoreState.step_badName cr hwf hbad
    exact hne (h herr)
  · rintro hok ⟨e, he⟩
    rcases StoreState.step_ok_or_same cr hwf op with ⟨r, hr⟩ | hs | hbad
    · rw [he] at hr
      cases hr
    · exact hs
    · exact absurd hbad hok

/-- A name with a space costs the empty store its first id, whatever the cryptography. -/
theorem create_bad_name_takes_id : ¬ ∃ cr : Crypto, ∀ op : Op,
    (∃ e, (step cr default op).1 = .error e) → (step cr default op).2 = default := by
  rintro ⟨cr, h⟩
  have hsame : (StoreState.create default ⟨"bad name", .unlimited, none⟩ .all).2 = default :=
    h (.create ⟨"bad name", .unlimited, none⟩ .all) ⟨_, rfl⟩
  exact absurd hsame (by decide)

end Celium
