import Celium.Lib.Infix
import Celium.Mesh
/-!
# Admin — what the admin server answers, and what readiness depends on

`celmesh::admin`'s `route` over `celmesh::mesh`'s `cluster_status` and `summary`.  `/readyz` looks for `degraded=false` in
the summary line, and the node id and the cluster name stand in that line as they are: where either holds the text
itself, a node that is alone is ready.  Reading the request and writing the reply are not modelled.
-/
namespace Celium

open Infix

/-- `MeshMetricsSnapshot`: every counter at one instant. -/
structure MeshMetricsSnapshot where
  gossipSent : UInt64
  gossipRecv : UInt64
  decodeErrors : UInt64
  foreignClusterDrops : UInt64
  suspectPromotions : UInt64
  deadPromotions : UInt64
  rpcIn : UInt64
  rpcOut : UInt64
  rpcTimeouts : UInt64
  rpcErrors : UInt64
  joinCalls : UInt64
  supervisorRestarts : UInt64
deriving DecidableEq, Repr

namespace MeshMetricsSnapshot

/-- `MeshMetricsSnapshot::default`. -/
def zero : MeshMetricsSnapshot := ⟨0, 0, 0, 0, 0, 0, 0, 0, 0, 0, 0, 0⟩

def renderPrometheus (m : MeshMetricsSnapshot) : String :=
  [("celmesh_gossip_sent_total", m.gossipSent),
   ("celmesh_gossip_recv_total", m.gossipRecv),
   ("celmesh_decode_errors_total", m.decodeErrors),
   ("celmesh_foreign_cluster_drops_total", m.foreignClusterDrops),
   ("celmesh_suspect_promotions_total", m.suspectPromotions),
   ("celmesh_dead_promotions_total", m.deadPromotions),
   ("celmesh_rpc_in_total", m.rpcIn),
   ("celmesh_rpc_out_total", m.rpcOut),
   ("celmesh_rpc_timeouts_total", m.rpcTimeouts),
   ("celmesh_rpc_errors_total", m.rpcErrors),
   ("celmesh_join_calls_total", m.joinCalls),
   ("celmesh_supervisor_restarts_total", m.supervisorRestarts)].foldl
    (fun out kv => out ++ s!"# TYPE {kv.1} counter\n{kv.1} {kv.2}\n") ""

end MeshMetricsSnapshot

structure ClusterStatus where
  selfId : NodeId
  cluster : String
  members : List NodeInfo
  vms : List RemoteVm
  alive : Nat
  suspect : Nat
  dead : Nat
  totalVms : Nat
  orphanedVms : Nat
deriving DecidableEq, Repr

namespace Inner

/-- `Mesh::cluster_status`: `owner_alive` is patched in the copy, and the table keeps what it had. -/
def clusterStatus (g : Inner) : ClusterStatus :=
  let members := g.membership.snapshot
  let vms := g.federation.list.map
    (fun v => { v with ownerAlive := if v.owner = g.config.nodeId then true else g.aliveOf v.owner })
  { selfId := g.config.nodeId
    cluster := g.config.cluster
    members
    vms
    alive := (members.filter (fun r => r.status == .alive)).length
    suspect := (members.filter (fun r => r.status == .suspect)).length
    dead := (members.filter (fun r => r.status == .dead || r.status == .left)).length
    totalVms := vms.length
    orphanedVms := (vms.filter (fun r => !r.ownerAlive)).length }

/-- `Mesh::summary`. -/
def summary (g : Inner) (m : MeshMetricsSnapshot) : String :=
  let s := g.clusterStatus
  let total := s.members.length
  let degraded := decide (s.alive ≤ 1)
  s!"node={s.selfId.raw} cluster={s.cluster} alive={s.alive}/{total} suspect={s.suspect} dead={s.dead} " ++
    s!"vms={s.totalVms} orphaned={s.orphanedVms} degraded={degraded} gossip={m.gossipRecv}/{m.gossipSent} " ++
    s!"decode_err={m.decodeErrors} rpc_err={m.rpcErrors}"

/-- `route`: the status, the content type and the body. -/
def route (g : Inner) (m : MeshMetricsSnapshot) (path : String) : Nat × String × String :=
  match path with
  | "/metrics" => (200, "text/plain; version=0.0.4", m.renderPrometheus)
  | "/healthz" => (200, "text/plain; charset=utf-8", g.summary m ++ "\n")
  | "/readyz" =>
    let summary := g.summary m
    let ready := contains summary "degraded=false"
    (if ready then 200 else 503, "text/plain; charset=utf-8", summary ++ "\n")
  | "/" => (200, "text/plain; charset=utf-8", "celmesh admin\n  GET /metrics\n  GET /healthz\n  GET /readyz\n")
  | _ => (404, "text/plain; charset=utf-8", "not found\n")

/-! ## The words of the summary line -/

/-- A word of the line: its label, and the value behind it. -/
def word (label value : String) : List Char := label.toList ++ value.toList

/-- The line is its words, with a space between each two. -/
theorem summary_words (g : Inner) (m : MeshMetricsSnapshot) :
    (g.summary m).toList = [' '].intercalate
      [word "node=" g.config.nodeId.raw,
       word "cluster=" g.config.cluster,
       word "alive=" s!"{g.membership.aliveCount}/{g.membership.snapshot.length}",
       word "suspect=" (toString g.clusterStatus.suspect),
       word "dead=" (toString g.clusterStatus.dead),
       word "vms=" (toString g.clusterStatus.totalVms),
       word "orphaned=" (toString g.clusterStatus.orphanedVms),
       word "degraded=" (toString (decide (g.membership.aliveCount ≤ 1))),
       word "gossip=" s!"{m.gossipRecv}/{m.gossipSent}",
       word "decode_err=" (toString m.decodeErrors),
       word "rpc_err=" (toString m.rpcErrors)] := by
  have hcut : " cluster=".toList = ' ' :: "cluster=".toList ∧ " alive=".toList = ' ' :: "alive=".toList ∧
      " suspect=".toList = ' ' :: "suspect=".toList ∧ " dead=".toList = ' ' :: "dead=".toList ∧
      " ".toList = [' '] ∧ " orphaned=".toList = ' ' :: "orphaned=".toList ∧
      " degraded=".toList = ' ' :: "degraded=".toList ∧ " gossip=".toList = ' ' :: "gossip=".toList ∧
      " rpc_err=".toList = ' ' :: "rpc_err=".toList := by decide
  obtain ⟨h1, h2, h3, h4, h5, h6, h7, h8, h9⟩ := hcut
  have hstr : ∀ s : String, toString s = s := fun s => rfl
  unfold summary word
  simp only [String.toList_append, hstr, h1, h2, h3, h4, h5, h6, h7, h8, h9, List.intercalate_cons_cons,
    List.intercalate_singleton, List.append_assoc, List.cons_append, List.nil_append]
  rfl

/-! ## What the search for the flag finds -/

/-- The text `/readyz` looks for. -/
def flag : List Char := "degraded=false".toList

/-- A word whose value is a number, or two with a slash between, has no letter beyond its label's. -/
theorem not_flag_of_letter {label value : String} {c : Char} (hf : c ∈ flag) (hl : c ∉ label.toList)
    (hv : c ∉ value.toList) : ¬ flag <:+: word label value := by
  apply not_infix_of_mem hf
  rw [word, List.mem_append, not_or]
  exact ⟨hl, hv⟩

theorem not_mem_pair (a b : Nat) {c : Char} (hc : c.isDigit = false) (hs : c ≠ '/') :
    c ∉ (s!"{a}/{b}").toList := by
  have hslash : (toString "/").toList = ['/'] := by decide
  rw [String.toList_append, String.toList_append, List.mem_append, List.mem_append, not_or, not_or, hslash,
    List.mem_singleton]
  exact ⟨⟨not_mem_toString a hc, hs⟩, not_mem_toString b hc⟩

theorem toString_toNat (n : UInt64) : toString n = toString n.toNat := rfl

/-- The one word the status writes the flag in. -/
theorem flag_degraded (n : Nat) : flag <:+: word "degraded=" (toString (decide (n ≤ 1))) ↔ 1 < n := by
  by_cases h : n ≤ 1
  · rw [decide_eq_true h]
    exact iff_of_false (by decide) (by omega)
  · rw [decide_eq_false h]
    exact iff_of_true (by decide) (by omega)

/-- **The line holds the flag iff more than one row is `Alive`, or one of the two names does.** -/
theorem summary_flag (g : Inner) (m : MeshMetricsSnapshot) :
    contains (g.summary m) "degraded=false" = true ↔
      1 < g.membership.aliveCount ∨ contains g.config.nodeId.raw "degraded=false" = true ∨
        contains g.config.cluster "degraded=false" = true := by
  have hnode : flag <:+: word "node=" g.config.nodeId.raw ↔ flag <:+: g.config.nodeId.raw.toList :=
    infix_label (by decide)
  have hcluster : flag <:+: word "cluster=" g.config.cluster ↔ flag <:+: g.config.cluster.toList :=
    infix_label (by decide)
  have hnum : ∀ label : String, 'g' ∉ label.toList → ∀ n : Nat, ¬ flag <:+: word label (toString n) := fun label hl n =>
    not_flag_of_letter (by decide) hl (not_mem_toString n (by decide))
  have halive : ¬ flag <:+: word "alive=" s!"{g.membership.aliveCount}/{g.membership.snapshot.length}" :=
    not_flag_of_letter (c := 'g') (by decide) (by decide) (not_mem_pair _ _ (by decide) (by decide))
  have hgossip : ¬ flag <:+: word "gossip=" s!"{m.gossipRecv.toNat}/{m.gossipSent.toNat}" :=
    not_flag_of_letter (c := 'f') (by decide) (by decide) (not_mem_pair _ _ (by decide) (by decide))
  rw [contains_iff, contains_iff, contains_iff, summary_words]
  change flag <:+: _ ↔ _ ∨ flag <:+: _ ∨ flag <:+: _
  rw [infix_intercalate (by decide) (by decide)]
  simp only [List.exists_mem_cons_iff, List.not_mem_nil, false_and, exists_false, toString_toNat, hnode, hcluster, halive,
    hgossip, flag_degraded, hnum "suspect=" (by decide), hnum "dead=" (by decide), hnum "vms=" (by decide),
    hnum "orphaned=" (by decide), hnum "decode_err=" (by decide), hnum "rpc_err=" (by decide), or_false, false_or]
  rw [← or_assoc, or_comm]

/-! ## Readiness -/

theorem route_readyz (g : Inner) (m : MeshMetricsSnapshot) :
    (g.route m "/readyz").1 = if contains (g.summary m) "degraded=false" then 200 else 503 := by
  simp only [route]

/-- **`/readyz` answers by the membership iff a second row is `Alive`, or neither the node id nor the cluster name holds
the text it looks for.** -/
theorem readyz_code_iff (g : Inner) (m : MeshMetricsSnapshot) :
    (g.route m "/readyz").1 = (if 1 < g.membership.aliveCount then 200 else 503) ↔
      1 < g.membership.aliveCount ∨ (¬ contains g.config.nodeId.raw "degraded=false" = true ∧
        ¬ contains g.config.cluster "degraded=false" = true) := by
  rw [route_readyz]
  by_cases halive : 1 < g.membership.aliveCount
  · rw [if_pos halive, if_pos ((summary_flag g m).2 (.inl halive))]
    exact iff_of_true rfl (.inl halive)
  · rw [if_neg halive]
    by_cases hflag : contains (g.summary m) "degraded=false" = true
    · rw [if_pos hflag]
      have hname := ((summary_flag g m).1 hflag).resolve_left halive
      exact iff_of_false (by decide) (fun h => by
        obtain ⟨hnode, hcluster⟩ := h.resolve_left halive
        exact hname.elim hnode hcluster)
    · rw [if_neg hflag]
      rw [summary_flag, not_or, not_or] at hflag
      exact iff_of_true rfl (.inr hflag.2)

/-- A node that has met nobody has one row, its own. -/
theorem start_aliveCount (config : MeshConfig) (now : Nat) : (start config now).membership.aliveCount = 1 := rfl

end Inner

/-- A node whose cluster is called what `/readyz` looks for. -/
def flagCluster : MeshConfig :=
  { cluster := "degraded=false", nodeId := ⟨"n1"⟩, advertiseAddr := "mem://n1", epoch := 1, seeds := [],
    gossipInterval := 500, timeoutSuspect := 2000, timeoutDead := 5000, supervisorInterval := 1000 }

/-- It is ready as soon as it starts, alone. -/
theorem lone_node_ready :
    (Inner.start flagCluster 0).membership.aliveCount = 1 ∧
    ((Inner.start flagCluster 0).route .zero "/readyz").1 = 200 := by
  refine ⟨Inner.start_aliveCount _ _, ?_⟩
  have hflag : contains (Inner.start flagCluster 0).config.cluster "degraded=false" = true := by decide
  rw [Inner.route_readyz, if_pos ((Inner.summary_flag _ _).2 (.inr (.inr hflag)))]

end Celium
