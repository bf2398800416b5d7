import Celium.HostSections
import Celium.NetworkIds
/-!
# HostIds — the networks and load balancers that a host has created

Of the sections of a call at most one calls the network store.  A call that has created something ends with the answer
that says so, and so the counters of the store are never above the number of such answers.
-/
namespace Celium

open Fixed Runs

/-- A call that has created a network. -/
def Rest.madeNetwork : Rest → Bool
  | .returned (.reply (.ok (.networkCreated _))) => true
  | _ => false

/-- A call that has created a load balancer. -/
def Rest.madeLoadBalancer : Rest → Bool
  | .returned (.reply (.ok (.loadBalancerCreated _))) => true
  | _ => false

namespace MemVmHost

open MemNetworkStore (Issues)

/-- What a section does to the ids of the store: what it gives out is in the answer of its call, and a call that is over
does nothing more. -/
def SectionIssues (h : MemVmHost) (rest : Rest) (p : Rest × MemVmHost) : Prop :=
  Issues h.nets p.2.nets (if p.1.madeNetwork then 1 else 0) (if p.1.madeLoadBalancer then 1 else 0) ∧
    (rest.isReturned = true → p.1 = rest ∧ p.2 = h)

variable {h : MemVmHost} {rest : Rest} {p : Rest × MemVmHost}

/-- A section that calls the store for something that gives out no id. -/
theorem SectionIssues.of_zero (hrest : rest.isReturned = false) (hissues : Issues h.nets p.2.nets 0 0) :
    h.SectionIssues rest p :=
  ⟨hissues.mono (Nat.zero_le _) (Nat.zero_le _), fun hover => by rw [hrest] at hover; cases hover⟩

/-- A section that leaves the store alone. -/
theorem SectionIssues.of_nets (hrest : rest.isReturned = false) (hnets : p.2.nets = h.nets) : h.SectionIssues rest p := by
  refine .of_zero hrest ?_
  rw [hnets]
  exact .refl h.nets

/-- The first section of an operation. -/
theorem first_issues (h : MemVmHost) (op : VmOp) : h.SectionIssues (.start (.handle op)) (h.first op) := by
  cases op with
  | deleteNetwork networkId => exact .of_zero rfl (h.nets.deleteNetwork_issues networkId)
  | detachNic nicId => exact .of_zero rfl (h.nets.detachNic_issues nicId)
  | deleteSecurityGroup sgId => exact .of_zero rfl (h.nets.deleteSecurityGroup_issues sgId)
  | deleteLoadBalancer lbId => exact .of_zero rfl (h.nets.deleteLoadBalancer_issues lbId)
  | createVolume name sizeBytes => exact .of_nets rfl (by rw [first, withOwner_snd])
  | createNetwork name cidr => exact .of_nets rfl (by rw [first, withOwner_snd])
  | createSecurityGroup name rules => exact .of_nets rfl (by rw [first, withOwner_snd])
  | createLoadBalancer name networkId vip frontendPort algo backends => exact .of_nets rfl (by rw [first, withOwner_snd])
  | list | listVolumes | listSnapshots | listNetworks | listNics | listSecurityGroups | listLoadBalancers
  | createSnapshot | deleteSnapshot | restoreSnapshot => exact .of_nets rfl rfl
  | create | start | stop | delete | deleteVolume | attachVolume | detachVolume | readVolume | writeVolume | attachNic =>
    refine .of_nets rfl ?_
    simp only [first, ends, dispatch, create, start, stop, delete, detachVolume, readVolume, writeVolume]
    repeat' split
    all_goals rfl

/-- **One section.** -/
theorem locked_issues (h : MemVmHost) (rest : Rest) : h.SectionIssues rest (h.locked rest) := by
  cases rest with
  | start call =>
    cases call with
    | handle op =>
      rw [locked]
      split
      · exact .of_nets rfl rfl
      · exact first_issues h op
    | snapshot owner =>
      refine .of_nets rfl ?_
      simp only [locked, rememberOwner]
      split
      · rfl
      · rfl
  | createVolume owner name sizeBytes => exact .of_nets rfl rfl
  | deleteVolume volumeId => exact .of_nets rfl rfl
  | attachVolume vmId volumeId mountName =>
    refine .of_nets rfl ?_
    simp only [locked, ends, pushVolume]
    repeat' split
    all_goals rfl
  | createNetwork owner name block =>
    have hmade : (h.locked (.createNetwork owner name block)).1.madeNetwork = (h.nets.createNetwork owner name block).1.isOk ∧
        (h.locked (.createNetwork owner name block)).1.madeLoadBalancer = false := by
      simp only [locked, ends, onNets]
      cases (h.nets.createNetwork owner name block).1 <;> exact ⟨rfl, rfl⟩
    refine ⟨?_, fun hover => by cases hover⟩
    rw [hmade.1, hmade.2]
    exact h.nets.createNetwork_issues owner name block
  | attachNic networkId vmId ip => exact .of_zero rfl (h.nets.attachNic_issues networkId vmId ip)
  | createSecurityGroup owner name rules => exact .of_zero rfl (h.nets.createSecurityGroup_issues owner name rules)
  | createLoadBalancer owner name networkId vip frontendPort algo backends =>
    have hmade : (h.locked (.createLoadBalancer owner name networkId vip frontendPort algo backends)).1.madeNetwork = false ∧
        (h.locked (.createLoadBalancer owner name networkId vip frontendPort algo backends)).1.madeLoadBalancer =
          (h.nets.createLoadBalancer owner name networkId vip frontendPort algo backends).1.isOk := by
      simp only [locked, ends, onNets]
      cases (h.nets.createLoadBalancer owner name networkId vip frontendPort algo backends).1 <;> exact ⟨rfl, rfl⟩
    refine ⟨?_, fun hover => by cases hover⟩
    rw [hmade.1, hmade.2]
    exact h.nets.createLoadBalancer_issues owner name networkId vip frontendPort algo backends
  | rows owner => exact .of_nets rfl rfl
  | returned answer => exact ⟨.refl h.nets, fun _ => ⟨rfl, rfl⟩⟩

end MemVmHost

/-! ## Any number of calls -/

namespace HostSystem

/-- The store's counters are within what the calls have created, and its ids were given out. -/
structure Counted (s : HostSystem) : Prop where
  networks : s.host.nets.nextNet.toNat ≤ s.calls.countP Rest.madeNetwork
  loadBalancers : s.host.nets.nextLb.toNat ≤ s.calls.countP Rest.madeLoadBalancer
  issued : s.host.nets.Issued

/-- A call that has its answer counts once more if it did not before. -/
theorem countP_set {calls : List Rest} {k : Nat} {rest rest' : Rest} {made : Rest → Bool} (hk : calls[k]? = some rest)
    (hrest : made rest = false) : (calls.set k rest').countP made = calls.countP made + if made rest' then 1 else 0 := by
  obtain ⟨hlt, rfl⟩ := List.getElem?_eq_some_iff.1 hk
  rw [List.countP_set hlt, if_neg (by rw [hrest]; exact Bool.false_ne_true), Nat.sub_zero]

theorem step_counted {s : HostSystem} (hs : s.Counted) (act : HostAct) : (s.step act).2.Counted := by
  cases act with
  | invoke call =>
    refine ⟨?_, ?_, hs.issued⟩
    · exact hs.networks.trans (List.Sublist.countP_le (List.sublist_append_left _ _))
    · exact hs.loadBalancers.trans (List.Sublist.countP_le (List.sublist_append_left _ _))
  | advance k =>
    simp only [step]
    split
    · exact hs
    · rename_i rest hrest
      obtain ⟨hissues, hover⟩ := MemVmHost.locked_issues s.host rest
      by_cases hreturned : rest.isReturned = true
      · obtain ⟨hsame, hhost⟩ := hover hreturned
        obtain ⟨hlt, rfl⟩ := List.getElem?_eq_some_iff.1 hrest
        rw [hsame, hhost, List.set_getElem_self]
        exact hs
      · have hnet : rest.madeNetwork = false := by
          cases rest with
          | returned answer => exact absurd rfl hreturned
          | _ => rfl
        have hlb : rest.madeLoadBalancer = false := by
          cases rest with
          | returned answer => exact absurd rfl hreturned
          | _ => rfl
        refine ⟨?_, ?_, hissues.issued hs.issued⟩
        · rw [countP_set hrest hnet]
          exact hissues.le_nets.trans (Nat.add_le_add_right hs.networks _)
        · rw [countP_set hrest hlb]
          exact hissues.le_lbs.trans (Nat.add_le_add_right hs.loadBalancers _)

/-- **In every run of a host.** -/
theorem run_counted (vault : MemVolumeStore) (caps : Capabilities) (acts : List HostAct) :
    (run step ⟨(MemVmHost.withVault vault).withCaps caps, []⟩ acts).Counted :=
  inv_run (I := Counted) (fun _ act hs => step_counted hs act) ⟨Nat.le_refl _, Nat.le_refl _, MemNetworkStore.new_issued⟩ acts

end HostSystem

end Celium
