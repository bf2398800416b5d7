import Celium.Supervisor
/-!
# Rpc — calls from node to node, and the frames that answer them

`celmesh::mesh::invoke` and the `Request` and `Response` arms of `handle_envelope`, over any number of nodes.  The
network keeps every frame ever sent: each may be handed to the node it was sent to at any time, any number of times, or
never.  A node that restarts comes back with a higher epoch and a fresh `Mesh`, so with an empty `pending` table and a
request counter that starts at 1 again.  What no program reads is kept to speak of it: each call has a number, a frame
remembers the call it belongs to, and every operation a host has served is on record.

Whether a peer is in the membership table when a frame is addressed to it is an input here, and so is what the transport
answers.
-/
namespace Celium

open Runs

/-- How `invoke` ends. -/
inductive Outcome where
  /-- A `Response` was handed to the call. -/
  | reply (r : HostResult)
  /-- The local fast path. -/
  | handled (r : HostResult)
  | noHost
  | unknownTarget
  | notAlive
  | unsendable
  | sendFailed (e : CelError)
  | dropped
  | timedOut
deriving DecidableEq

/-- What `invoke` returns. -/
def Outcome.result : Outcome → CelResult VmOpReply
  | .reply (.ok r)      => .ok r
  | .reply (.error s)   => .error (.io ("remote host: " ++ s))
  | .handled (.ok r)    => .ok r
  | .handled (.error s) => .error (.io ("host: " ++ s))
  | .noHost             => .error (.invalid "no VmHost registered")
  | .unknownTarget      => .error (.invalid "unknown target node")
  | .notAlive           => .error (.invalid "target node not Alive")
  | .unsendable         => .error (.internal "encode request")
  | .sendFailed e       => .error e
  | .dropped            => .error (.internal "response channel dropped")
  | .timedOut           => .error (.timeout "mesh rpc")

/-- A call as it was made: by which incarnation of which node, and the id minted for it, if it came to that. -/
structure RpcCall where
  caller : NodeId
  epoch : UInt64
  target : NodeId
  op : VmOp
  reqId : Option UInt64
deriving DecidableEq

/-- How far a call has come: what its channel holds, and how many `Response`s were handed to it. -/
structure CallStatus where
  sent : Bool
  answer : Option HostResult
  responses : Nat
  outcome : Option Outcome

def CallStatus.fresh : CallStatus := ⟨false, none, 0, none⟩

inductive Frame where
  | request (call : Nat) (sender target : NodeId) (reqId : UInt64) (op : VmOp)
  | response (call : Nat) (dst : NodeId) (reqId : UInt64) (result : HostResult)

/-- An operation a node has served for a call: with its host, or as a refusal where none is registered. -/
structure Exec where
  call : Nat
  node : NodeId
  op : VmOp
  byHost : Bool
  result : HostResult

structure RpcNode (σ : Type) where
  epoch : UInt64
  nextReq : UInt64
  pending : AList (fun _ : UInt64 => Nat)
  host : Option σ

/-- What `Mesh::start` builds. -/
def RpcNode.start {σ : Type} (epoch : UInt64) (host : Option σ) : RpcNode σ := ⟨epoch, 1, ∅, host⟩

/-- What a node answers to a `Request`, whether its host did, and the host after it. -/
def RpcNode.answer {σ : Type} (H : VmHost σ) (node : RpcNode σ) (op : VmOp) : Bool × HostResult × Option σ :=
  match node.host with
  | none => (false, .error "no VmHost registered", none)
  | some h => (true, (H.handle h op).1, some (H.handle h op).2)

structure Cluster (σ : Type) where
  nodes : NodeId → RpcNode σ
  calls : List RpcCall
  status : Nat → CallStatus
  frames : List Frame
  execs : List Exec

/-- What the transport makes of a request. -/
inductive SendResult where
  | encodeFailed
  | failed (e : CelError)
  | ok

namespace Cluster

variable {σ : Type} (H : VmHost σ) (n : Cluster σ)

/-- Nodes that have just started, and nothing sent yet. -/
def start (epoch : NodeId → UInt64) (host : NodeId → Option σ) : Cluster σ :=
  ⟨fun x => .start (epoch x) (host x), [], fun _ => .fresh, [], []⟩

def setNode (x : NodeId) (node : RpcNode σ) : Cluster σ := { n with nodes := Function.update n.nodes x node }

def setStatus (i : Nat) (s : CallStatus) : Cluster σ := { n with status := Function.update n.status i s }

/-- A new call that is over at once. -/
def refuse (x target : NodeId) (op : VmOp) (outcome : Outcome) : Cluster σ :=
  { n.setStatus n.calls.length { CallStatus.fresh with outcome := some outcome } with
    calls := n.calls ++ [⟨x, (n.nodes x).epoch, target, op, none⟩] }

/-- The local fast path of `invoke`. -/
def invokeLocal (x : NodeId) (op : VmOp) : Cluster σ :=
  match (n.nodes x).host with
  | none => n.refuse x x op .noHost
  | some h =>
    let (r, h) := H.handle h op
    let n := n.setNode x { n.nodes x with host := some h }
    { n.refuse x x op (.handled r) with execs := n.execs ++ [⟨n.calls.length, x, op, true, r⟩] }

/-- `invoke`, up to the entry in `pending`; `row` is the status the membership table has for the target. -/
def invoke (x target : NodeId) (op : VmOp) (row : Option NodeStatus) : Cluster σ :=
  if x = target then n.invokeLocal H x op
  else match row with
    | none => n.refuse x target op .unknownTarget
    | some .dead | some .left => n.refuse x target op .notAlive
    | some _ =>
      let node := n.nodes x
      let n := n.setNode x
        { node with nextReq := node.nextReq + 1, pending := node.pending.insert node.nextReq n.calls.length }
      { n.setStatus n.calls.length .fresh with calls := n.calls ++ [⟨x, node.epoch, target, op, some node.nextReq⟩] }

/-- The call at `i`, with its id, if it is one that its node is still working on. -/
def running (i : Nat) : Option (RpcCall × UInt64) :=
  match n.calls[i]? with
  | none => none
  | some c =>
    if c.epoch = (n.nodes c.caller).epoch ∧ (n.status i).outcome.isNone then c.reqId.map (fun k => (c, k)) else none

/-- The entry of an id goes from a node's table. -/
def forget (x : NodeId) (k : UInt64) : Cluster σ :=
  n.setNode x { n.nodes x with pending := (n.nodes x).pending.erase k }

def finish (i : Nat) (outcome : Outcome) : Cluster σ := n.setStatus i { n.status i with outcome := some outcome }

/-- The request is encoded and sent.  A `send` that fails may have let the frame out all the same. -/
def send (i : Nat) (r : SendResult) : Cluster σ :=
  match n.running i with
  | none => n
  | some (c, k) =>
    if (n.status i).sent then n
    else
      let frame := Frame.request i c.caller c.target k c.op
      match r with
      -- The source returns before it has removed the entry.
      | .encodeFailed => n.finish i .unsendable
      | .failed e => { (n.forget c.caller k).finish i (.sendFailed e) with frames := n.frames ++ [frame] }
      | .ok => { n.setStatus i { n.status i with sent := true } with frames := n.frames ++ [frame] }

/-- The caller finds its answer, or finds that the other end of its channel is gone. -/
def collect (i : Nat) : Cluster σ :=
  match n.running i with
  | none => n
  | some (c, k) =>
    if !(n.status i).sent then n
    else match (n.status i).answer with
      | some r => n.finish i (.reply r)
      | none => if (n.nodes c.caller).pending.lookup k = some i then n else n.finish i .dropped

/-- The wait of the caller is over; an answer that is there by then still counts. -/
def timeout (i : Nat) : Cluster σ :=
  match n.running i with
  | none => n
  | some (c, k) =>
    if !(n.status i).sent then n
    else match (n.status i).answer with
      | some r => n.finish i (.reply r)
      | none => (n.forget c.caller k).finish i .timedOut

/-- The `Request` arm: the target serves the operation, and answers if it knows the address of the sender. -/
def serve (call : Nat) (sender target : NodeId) (reqId : UInt64) (op : VmOp) (known : Bool) : Cluster σ :=
  let (byHost, r, host) := (n.nodes target).answer H op
  { n.setNode target { n.nodes target with host } with
    execs := n.execs ++ [⟨call, target, op, byHost, r⟩]
    frames := n.frames ++ (if known then [Frame.response call sender reqId r] else []) }

/-- The `Response` arm: whoever waits under the id gets the result. -/
def resolve (dst : NodeId) (reqId : UInt64) (r : HostResult) : Cluster σ :=
  match (n.nodes dst).pending.lookup reqId with
  | none => n
  | some i =>
    (n.forget dst reqId).setStatus i
      { n.status i with answer := some r, responses := (n.status i).responses + 1 }

/-- A frame is handed to the node it was sent to. -/
def deliver (f : Nat) (known : Bool) : Cluster σ :=
  match n.frames[f]? with
  | none => n
  | some (.request call sender target reqId op) => n.serve H call sender target reqId op known
  | some (.response _ dst reqId r) => n.resolve dst reqId r

/-- A new incarnation of a node. -/
def restart (x : NodeId) (epoch : UInt64) (host : Option σ) : Cluster σ :=
  if (n.nodes x).epoch < epoch then n.setNode x (.start epoch host) else n

end Cluster

inductive RpcEvent (σ : Type) where
  | invoke (x target : NodeId) (op : VmOp) (row : Option NodeStatus)
  | send (i : Nat) (r : SendResult)
  | deliver (f : Nat) (known : Bool)
  | collect (i : Nat)
  | timeout (i : Nat)
  | setHost (x : NodeId) (host : σ)
  | restart (x : NodeId) (epoch : UInt64) (host : Option σ)

def Cluster.step {σ : Type} (H : VmHost σ) (n : Cluster σ) (e : RpcEvent σ) : Unit × Cluster σ :=
  ((), match e with
    | .invoke x target op row => n.invoke H x target op row
    | .send i r => n.send i r
    | .deliver f known => n.deliver H f known
    | .collect i => n.collect i
    | .timeout i => n.timeout i
    | .setHost x host => n.setNode x { n.nodes x with host := some host }
    | .restart x epoch host => n.restart x epoch host)

namespace Cluster

variable {σ : Type} {H : VmHost σ} {n n' : Cluster σ}

/-! ## What is to hold -/

/-- The result is one that the target's host gave when it executed the operation for this very call. -/
def Produced (n : Cluster σ) (i : Nat) (c : RpcCall) (r : HostResult) : Prop :=
  ∃ ex ∈ n.execs, ex.call = i ∧ ex.node = c.target ∧ ex.op = c.op ∧ ex.result = r ∧ ex.byHost = true

/-- `invoke` has returned the result of a host. -/
def Returned (n : Cluster σ) (i : Nat) (r : HostResult) : Prop :=
  (n.status i).outcome = some (.reply r) ∨ (n.status i).outcome = some (.handled r)

/-- `invoke` has returned after a reply, a send error or a timeout. -/
def Over (n : Cluster σ) (i : Nat) : Prop :=
  ∃ o, (n.status i).outcome = some o ∧ ((∃ r, o = .reply r) ∨ (∃ e, o = .sendFailed e) ∨ o = .timedOut)

structure Correlated (n : Cluster σ) : Prop where
  produced : ∀ i c, n.calls[i]? = some c → ∀ r, n.Returned i r → n.Produced i c r
  once : ∀ i, (n.status i).responses ≤ 1
  gone : ∀ i, n.Over i → ∀ x k, (n.nodes x).pending.lookup k ≠ some i

/-- The call is one that the incarnation now running at `x` has minted an id for. -/
def mintedBy (n : Cluster σ) (x : NodeId) (c : RpcCall) : Bool :=
  decide (c.caller = x) && decide (c.epoch = (n.nodes x).epoch) && c.reqId.isSome

def issued (n : Cluster σ) (x : NodeId) : Nat := (n.calls.filter (n.mintedBy x)).length

/-- A `Request` reaches a node with a host, and a `Response` either finds no entry under its id or reaches the incarnation
that made the call it answers. -/
def Timely (n : Cluster σ) : Frame → Prop
  | .request _ _ target _ _ => (n.nodes target).host.isSome = true
  | .response call dst k _ =>
    (n.nodes dst).pending.lookup k = none ∨ ∀ c ∈ n.calls[call]?, c.epoch = (n.nodes dst).epoch

instance (n : Cluster σ) : DecidablePred n.Timely
  | .request _ _ target _ _ => inferInstanceAs (Decidable ((n.nodes target).host.isSome = true))
  | .response call dst k _ =>
    inferInstanceAs (Decidable ((n.nodes dst).pending.lookup k = none ∨
      ∀ c ∈ n.calls[call]?, c.epoch = (n.nodes dst).epoch))

/-- A remote call is made before its incarnation has minted `2 ^ 64` ids, and frames are delivered in time. -/
def Safe (n : Cluster σ) : RpcEvent σ → Prop
  | .invoke x target _ _ => x ≠ target → n.issued x < 2 ^ 64
  | .deliver f _ => ∀ fr ∈ n.frames[f]?, n.Timely fr
  | _ => True

instance (n : Cluster σ) : DecidablePred n.Safe
  | .invoke x target _ _ => inferInstanceAs (Decidable (x ≠ target → n.issued x < 2 ^ 64))
  | .deliver f _ => inferInstanceAs (Decidable (∀ fr ∈ n.frames[f]?, n.Timely fr))
  | .send .. | .collect _ | .timeout _ | .setHost .. | .restart .. => .isTrue trivial

/-! ## The ids -/

/-- No incarnation has minted an id twice. -/
structure Ids (n : Cluster σ) : Prop where
  epochs : ∀ c ∈ n.calls, c.epoch ≤ (n.nodes c.caller).epoch
  next : ∀ x, (n.nodes x).nextReq = UInt64.ofNat (1 + n.issued x)
  bound : ∀ c ∈ n.calls, c.epoch = (n.nodes c.caller).epoch → ∀ k, c.reqId = some k →
    ∃ m < n.issued c.caller, k = UInt64.ofNat (1 + m)
  distinct : ∀ (i j : Nat) (c d : RpcCall) (k : UInt64), n.calls[i]? = some c → n.calls[j]? = some d →
    c.caller = d.caller → c.epoch = d.epoch → c.reqId = some k → d.reqId = some k → i = j

theorem mintedBy_congr {x : NodeId} (he : (n'.nodes x).epoch = (n.nodes x).epoch) : n'.mintedBy x = n.mintedBy x := by
  funext c
  unfold mintedBy
  rw [he]

theorem Ids.congr (h : n.Ids) (hc : n'.calls = n.calls) (he : ∀ x, (n'.nodes x).epoch = (n.nodes x).epoch)
    (hq : ∀ x, (n'.nodes x).nextReq = (n.nodes x).nextReq) : n'.Ids := by
  have hissued : ∀ x, n'.issued x = n.issued x := by
    intro x
    unfold issued
    rw [hc, mintedBy_congr (he x)]
  refine ⟨?_, ?_, ?_, ?_⟩
  · intro c hmem
    rw [he]
    exact h.epochs c (hc ▸ hmem)
  · intro x
    rw [hq, hissued]
    exact h.next x
  · intro c hmem hep
    rw [he] at hep
    rw [hissued]
    exact h.bound c (hc ▸ hmem) hep
  · rw [hc]
    exact h.distinct

theorem getElem?_snoc {calls : List RpcCall} {c0 c : RpcCall} {i : Nat} (h : (calls ++ [c0])[i]? = some c) :
    calls[i]? = some c ∨ (i = calls.length ∧ c = c0) := by
  rw [List.getElem?_append] at h
  split at h
  · exact .inl h
  · rw [List.getElem?_singleton] at h
    split at h
    · exact .inr ⟨by omega, (Option.some.inj h).symm⟩
    · cases h

theorem issued_snoc {c0 : RpcCall} (hc : n'.calls = n.calls ++ [c0]) {x : NodeId}
    (he : (n'.nodes x).epoch = (n.nodes x).epoch) :
    n'.issued x = n.issued x + if n.mintedBy x c0 then 1 else 0 := by
  unfold issued
  rw [hc, mintedBy_congr he, List.filter_append, List.length_append, List.filter_singleton]
  cases n.mintedBy x c0 <;> rfl

/-- **A new call keeps the ids distinct**, if it has none or the next one of a counter that has not come round. -/
theorem Ids.add (h : n.Ids) (c0 : RpcCall) (hc : n'.calls = n.calls ++ [c0])
    (he : ∀ x, (n'.nodes x).epoch = (n.nodes x).epoch) (hepoch : c0.epoch = (n.nodes c0.caller).epoch)
    (hq : ∀ x, (n'.nodes x).nextReq = (n.nodes x).nextReq + if n.mintedBy x c0 then 1 else 0)
    (hid : ∀ k, c0.reqId = some k → k = (n.nodes c0.caller).nextReq ∧ n.issued c0.caller < 2 ^ 64) : n'.Ids := by
  have hissued := fun x => issued_snoc hc (he x)
  have hold : ∀ c ∈ n.calls, ∀ k, c.reqId = some k → c.epoch = (n.nodes c.caller).epoch → c.caller = c0.caller →
      c0.reqId ≠ some k := by
    intro c hmem k hk hcur hcaller hk0
    obtain ⟨m, hm, rfl⟩ := h.bound c hmem hcur k hk
    obtain ⟨heq, hlt⟩ := hid _ hk0
    rw [h.next, ← UInt64.toNat_inj, UInt64.toNat_ofNat', UInt64.toNat_ofNat'] at heq
    rw [hcaller] at hm
    omega
  refine ⟨?_, ?_, ?_, ?_⟩
  · intro c hmem
    rw [he]
    rcases List.mem_append.1 (hc ▸ hmem) with hmem | hmem
    · exact h.epochs c hmem
    · rw [List.mem_singleton.1 hmem, hepoch]
      exact UInt64.le_refl _
  · intro x
    rw [hq, hissued, h.next, ← Nat.add_assoc, UInt64.ofNat_add (1 + n.issued x)]
    split <;> rfl
  · intro c hmem hcur k hk
    rw [he] at hcur
    rw [hissued]
    rcases List.mem_append.1 (hc ▸ hmem) with hmem | hmem
    · obtain ⟨m, hm, heq⟩ := h.bound c hmem hcur k hk
      exact ⟨m, Nat.lt_of_lt_of_le hm (Nat.le_add_right _ _), heq⟩
    · obtain rfl := List.mem_singleton.1 hmem
      have hby : n.mintedBy c.caller c = true := by simp [mintedBy, hepoch, hk]
      rw [if_pos hby]
      exact ⟨n.issued c.caller, Nat.lt_succ_self _, (hid k hk).1.trans (h.next _)⟩
  · intro i j c d k hi hj hcaller hepochs hck hdk
    rw [hc] at hi hj
    have hnew : ∀ c, c = c0 → c.epoch = (n.nodes c.caller).epoch := fun c hc0 => hc0 ▸ hepoch
    rcases getElem?_snoc hi with hi' | ⟨hi', hc0⟩ <;> rcases getElem?_snoc hj with hj' | ⟨hj', hd0⟩
    · exact h.distinct i j c d k hi' hj' hcaller hepochs hck hdk
    · refine absurd (hd0 ▸ hdk) (hold c (List.mem_of_getElem? hi') k hck ?_ (hd0 ▸ hcaller))
      rw [hepochs, hcaller, hnew d hd0]
    · refine absurd (hc0 ▸ hck) (hold d (List.mem_of_getElem? hj') k hdk ?_ (hc0 ▸ hcaller.symm))
      rw [← hepochs, ← hcaller, hnew c hc0]
    · exact hi'.trans hj'.symm

/-- **A new incarnation begins its ids again**: none of the calls made so far is one of its own. -/
theorem Ids.restart (h : n.Ids) (x : NodeId) (epoch : UInt64) (host : Option σ) : (n.restart x epoch host).Ids := by
  unfold Cluster.restart
  split
  · rename_i hlt
    have hnew : ∀ c ∈ n.calls, c.caller = x → c.epoch ≠ epoch := by
      intro c hmem hcaller heq
      have hle := h.epochs c hmem
      rw [hcaller, heq] at hle
      exact absurd hlt (UInt64.not_lt.2 hle)
    set n1 := n.setNode x (.start epoch host) with hn1
    have hself : n1.nodes x = .start epoch host := Function.update_self x _ _
    have hother : ∀ y, y ≠ x → n1.nodes y = n.nodes y := fun y hy => Function.update_of_ne hy _ _
    have hissued : ∀ y, n1.issued y = if y = x then 0 else n.issued y := by
      intro y
      unfold issued
      split
      · rename_i hy
        subst hy
        rw [List.length_eq_zero_iff, List.filter_eq_nil_iff]
        intro c hmem hby
        simp only [mintedBy, hself, RpcNode.start, Bool.and_eq_true, decide_eq_true_eq] at hby
        exact hnew c hmem hby.1.1 hby.1.2
      · rename_i hy
        rw [mintedBy_congr (congrArg RpcNode.epoch (hother y hy))]
        rfl
    refine ⟨?_, ?_, ?_, h.distinct⟩
    · intro c hmem
      by_cases hx : c.caller = x
      · rw [hx, hself]
        have hle := h.epochs c hmem
        rw [hx] at hle
        exact UInt64.le_of_lt (UInt64.lt_of_le_of_lt hle hlt)
      · rw [hother _ hx]
        exact h.epochs c hmem
    · intro y
      rw [hissued]
      by_cases hy : y = x
      · rw [hy, hself, if_pos rfl]
        rfl
      · rw [if_neg hy, hother y hy]
        exact h.next y
    · intro c hmem hcur k hk
      by_cases hx : c.caller = x
      · rw [hx, hself] at hcur
        exact absurd hcur (hnew c hmem hx)
      · rw [hother _ hx] at hcur
        rw [hissued, if_neg hx]
        exact h.bound c hmem hcur k hk
  · exact h

/-! ## The frames and the table -/

/-- The call is waiting, or was given up before its request was sent. -/
structure Opened (s : CallStatus) : Prop where
  answer : s.answer = none
  responses : s.responses = 0
  outcome : ∀ o, s.outcome = some o → o = .unsendable

/-- The frame is the request of a call that was made, or answers one with what the target's host gave for it. -/
def Backed (n : Cluster σ) : Frame → Prop
  | .request i x target k op => ∃ c, n.calls[i]? = some c ∧ c.caller = x ∧ c.target = target ∧ c.op = op ∧ c.reqId = some k
  | .response i x k r => ∃ c, n.calls[i]? = some c ∧ c.caller = x ∧ c.reqId = some k ∧ n.Produced i c r

/-- The entry of `x`'s table under `k` is that of a call which this incarnation of `x` made under this id. -/
def Waits (n : Cluster σ) (x : NodeId) (k : UInt64) (i : Nat) : Prop :=
  ∃ c, n.calls[i]? = some c ∧ c.caller = x ∧ c.epoch = (n.nodes x).epoch ∧ c.reqId = some k ∧ Opened (n.status i)

/-- The call has a result, in its channel or returned. -/
def Has (n : Cluster σ) (i : Nat) (r : HostResult) : Prop := (n.status i).answer = some r ∨ n.Returned i r

structure Trace (n : Cluster σ) : Prop where
  frames : ∀ f ∈ n.frames, n.Backed f
  waits : ∀ x k i, (n.nodes x).pending.lookup k = some i → n.Waits x k i
  has : ∀ i c, n.calls[i]? = some c → ∀ r, n.Has i r → n.Produced i c r
  once : ∀ i, (n.status i).responses ≤ 1

theorem Produced.mono {i : Nat} {c : RpcCall} {r : HostResult} (hex : ∀ ex ∈ n.execs, ex ∈ n'.execs)
    (h : n.Produced i c r) : n'.Produced i c r := by
  obtain ⟨ex, hmem, hrest⟩ := h
  exact ⟨ex, hex ex hmem, hrest⟩

theorem Backed.mono {f : Frame} (hcalls : ∀ (i : Nat) c, n.calls[i]? = some c → n'.calls[i]? = some c)
    (hex : ∀ ex ∈ n.execs, ex ∈ n'.execs) (h : n.Backed f) : n'.Backed f := by
  cases f with
  | request i x target k op =>
    obtain ⟨c, hc, hrest⟩ := h
    exact ⟨c, hcalls i c hc, hrest⟩
  | response i x k r =>
    obtain ⟨c, hc, hx, hk, hp⟩ := h
    exact ⟨c, hcalls i c hc, hx, hk, hp.mono hex⟩

theorem Trace.correlated (h : n.Trace) : n.Correlated where
  produced := fun i c hc r hr => h.has i c hc r (.inr hr)
  once := h.once
  gone := by
    rintro i ⟨o, ho, hover⟩ x k hk
    obtain ⟨c, -, -, -, -, hopen⟩ := h.waits x k i hk
    have := hopen.outcome o ho
    subst this
    rcases hover with ⟨r, hr⟩ | ⟨e, he⟩ | hr
    · cases hr
    · cases he
    · cases hr

/-- The status of one call changes: it stays open if it has an entry, and any result it now has is of its own. -/
theorem Trace.setStatus (h : n.Trace) (i : Nat) {s : CallStatus}
    (hopen : ∀ x k, (n.nodes x).pending.lookup k = some i → Opened (n.status i) → Opened s)
    (hhas : ∀ r, s.answer = some r ∨ s.outcome = some (.reply r) ∨ s.outcome = some (.handled r) →
      ∀ c, n.calls[i]? = some c → n.Produced i c r)
    (honce : s.responses ≤ 1) : (n.setStatus i s).Trace := by
  have hstatus : ∀ j, (n.setStatus i s).status j = if j = i then s else n.status j :=
    fun j => Function.update_apply _ _ _ _
  refine ⟨h.frames, ?_, ?_, ?_⟩
  · intro x k j hj
    obtain ⟨c, hc, hcaller, hepoch, hk, ho⟩ := h.waits x k j hj
    refine ⟨c, hc, hcaller, hepoch, hk, ?_⟩
    rw [hstatus]
    split
    · rename_i hji
      subst hji
      exact hopen x k hj ho
    · exact ho
  · intro j c hc r hr
    unfold Has Returned at hr
    rw [hstatus] at hr
    split at hr
    · rename_i hji
      subst hji
      exact hhas r hr c hc
    · exact h.has j c hc r hr
  · intro j
    rw [hstatus]
    split
    · exact honce
    · exact h.once j

/-- A call that ends with the answer in its channel, or without a result and without an entry. -/
theorem Trace.finish (h : n.Trace) (i : Nat) (o : Outcome)
    (ho : ∀ r, o = .reply r ∨ o = .handled r → (n.status i).answer = some r)
    (hw : (∀ x k, (n.nodes x).pending.lookup k ≠ some i) ∨ o = .unsendable) : (n.finish i o).Trace := by
  refine h.setStatus i (fun x k hi hopen => ?_) (fun r hr c hc => h.has i c hc r ?_) (h.once i)
  · rcases hw with hw | rfl
    · exact absurd hi (hw x k)
    · exact ⟨hopen.answer, hopen.responses, fun o ho => (Option.some.inj ho).symm⟩
  · rcases hr with hr | hr | hr
    · exact .inl hr
    · exact .inl (ho r (.inl (Option.some.inj hr)))
    · exact .inl (ho r (.inr (Option.some.inj hr)))

theorem setNode_nodes (n : Cluster σ) (x : NodeId) (node : RpcNode σ) (y : NodeId) :
    (n.setNode x node).nodes y = if y = x then node else n.nodes y := Function.update_apply _ _ _ _

/-- A node changed in its host, and with entries gone from its table. -/
theorem Trace.setNode (h : n.Trace) (x : NodeId) {node : RpcNode σ} (he : node.epoch = (n.nodes x).epoch)
    (hp : ∀ k i, node.pending.lookup k = some i → (n.nodes x).pending.lookup k = some i) : (n.setNode x node).Trace := by
  refine ⟨h.frames, ?_, h.has, h.once⟩
  intro y k i hi
  rw [setNode_nodes] at hi
  unfold Waits
  rw [setNode_nodes]
  split at hi
  · rename_i hy
    subst hy
    rw [if_pos rfl, he]
    exact h.waits y k i (hp k i hi)
  · rw [if_neg ‹_›]
    exact h.waits y k i hi

theorem Ids.setNode (h : n.Ids) (x : NodeId) {node : RpcNode σ} (he : node.epoch = (n.nodes x).epoch)
    (hq : node.nextReq = (n.nodes x).nextReq) : (n.setNode x node).Ids := by
  refine h.congr rfl (fun y => ?_) (fun y => ?_) <;> rw [setNode_nodes] <;> split
  · rename_i hy
    rw [he, hy]
  · rfl
  · rename_i hy
    rw [hq, hy]
  · rfl

/-- An entry can go at any time. -/
theorem Trace.forget (h : n.Trace) (x : NodeId) (k : UInt64) : (n.forget x k).Trace := by
  refine h.setNode x rfl (fun k' i hi => ?_)
  rw [Assoc.lookup_erase_ite] at hi
  split at hi
  · cases hi
  · exact hi

/-- A call has no entry but the one under its id, in the table of its caller. -/
theorem Trace.forgotten (h : n.Trace) {i : Nat} {c : RpcCall} {k : UInt64} (hc : n.calls[i]? = some c)
    (hk : c.reqId = some k) (y : NodeId) (k' : UInt64) :
    ((n.forget c.caller k).nodes y).pending.lookup k' ≠ some i := by
  intro hi
  have hold : (n.nodes y).pending.lookup k' = some i := by
    rw [Cluster.forget, setNode_nodes] at hi
    split at hi
    · rename_i hy
      subst hy
      dsimp only at hi
      rw [Assoc.lookup_erase_ite] at hi
      split at hi
      · cases hi
      · exact hi
    · exact hi
  obtain ⟨d, hd, hcaller, -, hk', -⟩ := h.waits y k' i hold
  obtain rfl := Option.some.inj (hc.symm.trans hd)
  obtain rfl := Option.some.inj (hk.symm.trans hk')
  rw [Cluster.forget, setNode_nodes, if_pos hcaller.symm, Assoc.lookup_erase_ite, if_pos rfl] at hi
  cases hi

/-- Both invariants. -/
structure Inv (n : Cluster σ) : Prop where
  ids : n.Ids
  trace : n.Trace

theorem Inv.finish (h : n.Inv) (i : Nat) (o : Outcome)
    (ho : ∀ r, o = .reply r ∨ o = .handled r → (n.status i).answer = some r)
    (hw : (∀ x k, (n.nodes x).pending.lookup k ≠ some i) ∨ o = .unsendable) : (n.finish i o).Inv :=
  ⟨h.ids.congr rfl (fun _ => rfl) (fun _ => rfl), h.trace.finish i o ho hw⟩

theorem Inv.forget (h : n.Inv) (x : NodeId) (k : UInt64) : (n.forget x k).Inv :=
  ⟨h.ids.setNode x rfl rfl, h.trace.forget x k⟩

/-- A frame that has its call behind it may be sent. -/
theorem Inv.emit (h : n.Inv) {f : Frame} (hf : n.Backed f) : Inv { n with frames := n.frames ++ [f] } := by
  refine ⟨h.ids.congr rfl (fun _ => rfl) (fun _ => rfl), ⟨?_, h.trace.waits, h.trace.has, h.trace.once⟩⟩
  intro g hg
  rcases List.mem_append.1 hg with hg | hg
  · exact h.trace.frames g hg
  · rw [List.mem_singleton.1 hg]
    exact hf

theorem running_some {i : Nat} {c : RpcCall} {k : UInt64} (h : n.running i = some (c, k)) :
    n.calls[i]? = some c ∧ c.reqId = some k := by
  unfold running at h
  split at h
  · cases h
  · rename_i d hd
    split at h
    · obtain ⟨k', hk', heq⟩ := Option.map_eq_some_iff.1 h
      obtain ⟨rfl, rfl⟩ := Prod.mk.inj heq
      exact ⟨hd, hk'⟩
    · cases h

theorem Inv.send (h : n.Inv) (i : Nat) (r : SendResult) : (n.send i r).Inv := by
  unfold Cluster.send
  split
  · exact h
  · rename_i c k hrun
    obtain ⟨hc, hk⟩ := running_some hrun
    have hreq : n.Backed (.request i c.caller c.target k c.op) := ⟨c, hc, rfl, rfl, rfl, hk⟩
    split
    · exact h
    · cases r with
      | encodeFailed => exact h.finish i _ (fun r hr => by rcases hr with hr | hr <;> cases hr) (.inr rfl)
      | failed e =>
        have hfin : ((n.forget c.caller k).finish i (.sendFailed e)).Inv :=
          (h.forget c.caller k).finish i _ (fun r hr => by rcases hr with hr | hr <;> cases hr)
            (.inl (h.trace.forgotten hc hk))
        exact hfin.emit hreq
      | ok =>
        have hsent : (n.setStatus i { n.status i with sent := true }).Inv := by
          refine ⟨h.ids.congr rfl (fun _ => rfl) (fun _ => rfl), h.trace.setStatus i ?_ ?_ (h.trace.once i)⟩
          · exact fun x k' _ hopen => ⟨hopen.answer, hopen.responses, hopen.outcome⟩
          · exact fun r hr d hd => h.trace.has i d hd r hr
        exact hsent.emit hreq

theorem Inv.collect (h : n.Inv) (i : Nat) : (n.collect i).Inv := by
  unfold Cluster.collect
  split
  · exact h
  · rename_i c k hrun
    obtain ⟨hc, hk⟩ := running_some hrun
    split
    · exact h
    · split
      · rename_i r hr
        refine h.finish i _ (fun r' hr' => ?_) (.inl (fun x k' hi => ?_))
        · rcases hr' with hr' | hr'
          · cases hr'
            exact hr
          · cases hr'
        · obtain ⟨-, -, -, -, -, hopen⟩ := h.trace.waits x k' i hi
          rw [hopen.answer] at hr
          cases hr
      · split
        · exact h
        · rename_i hno
          refine h.finish i _ (fun r hr => by rcases hr with hr | hr <;> cases hr) (.inl (fun x k' hi => ?_))
          obtain ⟨d, hd, hcaller, -, hk', -⟩ := h.trace.waits x k' i hi
          obtain rfl := Option.some.inj (hc.symm.trans hd)
          obtain rfl := Option.some.inj (hk.symm.trans hk')
          exact hno (hcaller ▸ hi)

theorem Inv.timeout (h : n.Inv) (i : Nat) : (n.timeout i).Inv := by
  have hcollect := h.collect i
  unfold Cluster.timeout
  unfold Cluster.collect at hcollect
  split
  · exact h
  · rename_i c k hrun
    obtain ⟨hc, hk⟩ := running_some hrun
    rw [hrun] at hcollect
    dsimp only at hcollect
    split
    · exact h
    · rw [if_neg ‹_›] at hcollect
      split
      · rename_i r hr
        rw [hr] at hcollect
        exact hcollect
      · exact (h.forget c.caller k).finish i _ (fun r hr => by rcases hr with hr | hr <;> cases hr)
          (.inl (h.trace.forgotten hc hk))

/-- **A `Response` that reaches the incarnation which made its call goes to that call.** -/
theorem Inv.resolve (h : n.Inv) {call : Nat} {dst : NodeId} {k : UInt64} {r : HostResult}
    (hf : n.Backed (.response call dst k r))
    (hsafe : n.Timely (.response call dst k r)) : (n.resolve dst k r).Inv := by
  unfold Cluster.resolve
  split
  · exact h
  · rename_i i hi
    obtain ⟨c, hc, hcaller, hk, hprod⟩ := hf
    obtain ⟨d, hd, hdcaller, hdepoch, hdk, hopen⟩ := h.trace.waits dst k i hi
    have hepoch : c.epoch = (n.nodes dst).epoch := by
      rcases hsafe with hnone | hsafe
      · rw [hi] at hnone
        cases hnone
      · exact hsafe c hc
    -- Both calls are this incarnation's and have this id.
    have hsame : call = i :=
      h.ids.distinct call i c d k hc hd (hcaller.trans hdcaller.symm) (hepoch.trans hdepoch.symm) hk hdk
    subst hsame
    obtain rfl := Option.some.inj (hc.symm.trans hd)
    have hforget := h.forget dst k
    refine ⟨hforget.ids.congr rfl (fun _ => rfl) (fun _ => rfl), hforget.trace.setStatus call ?_ ?_ ?_⟩
    · intro x k' hi'
      have := h.trace.forgotten hc hk x k'
      rw [hcaller] at this
      exact absurd hi' this
    · intro r' hr' c' hc'
      obtain rfl := Option.some.inj (hc.symm.trans hc')
      rcases hr' with hr' | hr' | hr'
      · cases hr'
        exact hprod
      · cases hopen.outcome _ hr'
      · cases hopen.outcome _ hr'
    · exact (congrArg (· + 1) hopen.responses).le

/-- **A `Request` is served for the call that sent it.** -/
theorem Inv.serve (h : n.Inv) {call : Nat} {x target : NodeId} {k : UInt64} {op : VmOp}
    (hf : n.Backed (.request call x target k op)) (hhost : (n.nodes target).host.isSome = true) (known : Bool) :
    (n.serve H call x target k op known).Inv := by
  obtain ⟨host, hhost⟩ := Option.isSome_iff_exists.1 hhost
  obtain ⟨c, hc, hcaller, htarget, hop, hk⟩ := hf
  unfold Cluster.serve
  simp only [RpcNode.answer, hhost]
  set r := (H.handle host op).1
  set node : RpcNode σ := { n.nodes target with host := some (H.handle host op).2 }
  set ex : Exec := ⟨call, target, op, true, r⟩
  have hserved : Inv { n.setNode target node with execs := n.execs ++ [ex] } := by
    have hids : (n.setNode target node).Ids := h.ids.setNode target rfl rfl
    have htrace : (n.setNode target node).Trace := h.trace.setNode target rfl (fun _ _ hi => hi)
    have hmono : ∀ e ∈ n.execs, e ∈ n.execs ++ [ex] := fun e he => List.mem_append_left _ he
    refine ⟨hids.congr rfl (fun _ => rfl) (fun _ => rfl), ?_, htrace.waits, ?_, htrace.once⟩
    · exact fun f hf => Backed.mono (n := n.setNode target node) (fun _ _ hc => hc) hmono (htrace.frames f hf)
    · exact fun i d hd r hr => Produced.mono (n := n.setNode target node) hmono (htrace.has i d hd r hr)
  cases known with
  | false =>
    rw [if_neg (by decide), List.append_nil]
    exact hserved
  | true =>
    refine hserved.emit (f := .response call x k r) ⟨c, hc, hcaller, hk, ex, List.mem_append_right _ List.mem_cons_self,
      rfl, htarget.symm, hop.symm, rfl, rfl⟩

/-- A new call joins with a status of its own; `more` is what was executed for it on the way. -/
theorem Trace.add (h : n.Trace) (c0 : RpcCall) {s : CallStatus} (more : List Exec) (hnew : s.responses ≤ 1)
    (hhas : ∀ r, s.answer = some r ∨ s.outcome = some (.reply r) ∨ s.outcome = some (.handled r) →
      ∃ ex ∈ more, ex.call = n.calls.length ∧ ex.node = c0.target ∧ ex.op = c0.op ∧ ex.result = r ∧ ex.byHost = true) :
    Trace { n with calls := n.calls ++ [c0], status := Function.update n.status n.calls.length s,
                   execs := n.execs ++ more } := by
  have hlt : ∀ {i : Nat} {c : RpcCall}, n.calls[i]? = some c → i ≠ n.calls.length :=
    fun hc => Nat.ne_of_lt (List.getElem?_eq_some_iff.1 hc).1
  have hcalls : ∀ (i : Nat) (c : RpcCall), n.calls[i]? = some c → (n.calls ++ [c0])[i]? = some c :=
    fun i c hc => by rw [List.getElem?_append_left (List.getElem?_eq_some_iff.1 hc).1, hc]
  have hmono : ∀ e ∈ n.execs, e ∈ n.execs ++ more := fun e he => List.mem_append_left _ he
  refine ⟨fun f hf => Backed.mono (n := n) hcalls hmono (h.frames f hf), ?_, ?_, ?_⟩
  · intro x k i hi
    obtain ⟨c, hc, hcaller, hepoch, hk, hopen⟩ := h.waits x k i hi
    refine ⟨c, hcalls i c hc, hcaller, hepoch, hk, ?_⟩
    dsimp only
    rw [Function.update_of_ne (hlt hc)]
    exact hopen
  · intro i c hc r hr
    unfold Has Returned at hr
    dsimp only at hc hr
    rcases getElem?_snoc hc with hc | ⟨rfl, rfl⟩
    · rw [Function.update_of_ne (hlt hc)] at hr
      exact Produced.mono (n := n) hmono (h.has i c hc r hr)
    · rw [Function.update_self] at hr
      obtain ⟨ex, hmem, hrest⟩ := hhas r hr
      exact ⟨ex, List.mem_append_right _ hmem, hrest⟩
  · intro i
    dsimp only
    by_cases hi : i = n.calls.length
    · rw [hi, Function.update_self]
      exact hnew
    · rw [Function.update_of_ne hi]
      exact h.once i

theorem Inv.refuse (h : n.Inv) (x target : NodeId) (op : VmOp) {o : Outcome}
    (ho : ∀ r, o ≠ .reply r ∧ o ≠ .handled r) : (n.refuse x target op o).Inv := by
  refine ⟨h.ids.add ⟨x, (n.nodes x).epoch, target, op, none⟩ rfl (fun _ => rfl) rfl (fun y => ?_) (fun k hk => ?_), ?_⟩
  · rw [if_neg (by simp [mintedBy])]
    exact (UInt64.add_zero _).symm
  · cases hk
  · have htrace := h.trace.add ⟨x, (n.nodes x).epoch, target, op, none⟩ []
      (s := { CallStatus.fresh with outcome := some o }) (Nat.zero_le 1) (fun r hr => by
        rcases hr with hr | hr | hr
        · cases hr
        · exact absurd (Option.some.inj hr) (ho r).1
        · exact absurd (Option.some.inj hr) (ho r).2)
    rw [List.append_nil] at htrace
    exact htrace

theorem Inv.invokeLocal (h : n.Inv) (x : NodeId) (op : VmOp) : (n.invokeLocal H x op).Inv := by
  unfold Cluster.invokeLocal
  split
  · exact h.refuse x x op (fun r => ⟨nofun, nofun⟩)
  · rename_i host hhost
    dsimp only
    set node : RpcNode σ := { n.nodes x with host := some (H.handle host op).2 } with hnode
    have hids : (n.setNode x node).Ids := h.ids.setNode x rfl rfl
    have htrace : (n.setNode x node).Trace := h.trace.setNode x rfl (fun _ _ hi => hi)
    have hepoch : ((n.setNode x node).nodes x).epoch = (n.nodes x).epoch := by rw [setNode_nodes, if_pos rfl]
    refine ⟨?_, ?_⟩
    · refine hids.add ⟨x, ((n.setNode x node).nodes x).epoch, x, op, none⟩ rfl (fun _ => rfl) rfl (fun y => ?_)
        (fun k hk => ?_)
      · rw [if_neg (by simp [mintedBy])]
        exact (UInt64.add_zero _).symm
      · cases hk
    · refine htrace.add ⟨x, ((n.setNode x node).nodes x).epoch, x, op, none⟩
        [⟨n.calls.length, x, op, true, (H.handle host op).1⟩] (Nat.zero_le 1) (fun r hr => ?_)
      rcases hr with hr | hr | hr
      · cases hr
      · cases hr
      · cases hr
        exact ⟨_, List.mem_cons_self, rfl, rfl, rfl, rfl, rfl⟩

/-- **`invoke` mints an id that no call of this incarnation has.** -/
theorem Inv.invoke (h : n.Inv) (x target : NodeId) (op : VmOp) (row : Option NodeStatus)
    (hsafe : x ≠ target → n.issued x < 2 ^ 64) : (n.invoke H x target op row).Inv := by
  unfold Cluster.invoke
  split
  · exact h.invokeLocal x op
  · have hroom := hsafe ‹_›
    split
    · exact h.refuse x target op (fun r => ⟨nofun, nofun⟩)
    · exact h.refuse x target op (fun r => ⟨nofun, nofun⟩)
    · exact h.refuse x target op (fun r => ⟨nofun, nofun⟩)
    · dsimp only
      set c0 : RpcCall := ⟨x, (n.nodes x).epoch, target, op, some (n.nodes x).nextReq⟩ with hc0
      set node : RpcNode σ := { n.nodes x with
        nextReq := (n.nodes x).nextReq + 1, pending := (n.nodes x).pending.insert (n.nodes x).nextReq n.calls.length }
      have hepoch : ∀ y, ((n.setNode x node).nodes y).epoch = (n.nodes y).epoch := by
        intro y
        rw [setNode_nodes]
        split
        · rename_i hy
          rw [hy]
        · rfl
      have hadd : Trace { n with calls := n.calls ++ [c0], status := Function.update n.status n.calls.length .fresh,
                                 execs := n.execs ++ [] } :=
        h.trace.add _ _ (Nat.zero_le 1) (fun r hr => by rcases hr with hr | hr | hr <;> cases hr)
      rw [List.append_nil] at hadd
      refine ⟨h.ids.add c0 rfl hepoch rfl (fun y => ?_) (fun k hk => ⟨(Option.some.inj hk).symm, hroom⟩),
        hadd.frames, ?_, hadd.has, hadd.once⟩
      · change ((n.setNode x node).nodes y).nextReq = _
        rw [setNode_nodes]
        by_cases hy : y = x
        · rw [if_pos hy, hy, if_pos (by simp [mintedBy, hc0])]
        · rw [if_neg hy, if_neg (by simp [mintedBy, hc0, Ne.symm hy])]
          exact (UInt64.add_zero _).symm
      · intro y k i hi
        change ((n.setNode x node).nodes y).pending.lookup k = some i at hi
        rw [setNode_nodes] at hi
        have hold : (n.nodes y).pending.lookup k = some i → ∃ c, (n.calls ++ [c0])[i]? = some c ∧ c.caller = y ∧
            c.epoch = ((n.setNode x node).nodes y).epoch ∧ c.reqId = some k ∧
            Opened (Function.update n.status n.calls.length CallStatus.fresh i) := fun hi => by
          obtain ⟨c, hc, hcaller, hep, hk, hopen⟩ := hadd.waits y k i hi
          exact ⟨c, hc, hcaller, hep.trans (hepoch y).symm, hk, hopen⟩
        by_cases hy : y = x
        · subst hy
          rw [if_pos rfl] at hi
          dsimp only [node] at hi
          rw [Assoc.lookup_insert_ite] at hi
          split at hi
          · rename_i hk
            obtain rfl := Option.some.inj hi
            refine ⟨c0, ?_, rfl, (hepoch y).symm, by rw [hk], ?_⟩
            · exact List.getElem?_concat_length
            · change Opened (Function.update n.status n.calls.length CallStatus.fresh n.calls.length)
              rw [Function.update_self]
              exact ⟨rfl, rfl, fun o ho => by cases ho⟩
          · exact hold hi
        · rw [if_neg hy] at hi
          exact hold hi

theorem Inv.deliver (h : n.Inv) (f : Nat) (known : Bool) (hsafe : n.Safe (.deliver f known)) :
    (n.deliver H f known).Inv := by
  unfold Cluster.deliver
  cases hf : n.frames[f]? with
  | none => exact h
  | some fr =>
    have hback := h.trace.frames fr (List.mem_of_getElem? hf)
    have htimely : n.Timely fr := hsafe fr hf
    cases fr with
    | request call sender target k op => exact h.serve hback htimely known
    | response call dst k r => exact h.resolve hback htimely

theorem Trace.restart (h : n.Trace) (x : NodeId) (epoch : UInt64) (host : Option σ) :
    (n.restart x epoch host).Trace := by
  unfold Cluster.restart
  split
  · refine ⟨h.frames, ?_, h.has, h.once⟩
    intro y k i hi
    rw [setNode_nodes] at hi
    unfold Waits
    rw [setNode_nodes]
    split at hi
    · cases hi
    · rw [if_neg ‹_›]
      exact h.waits y k i hi
  · exact h

/-- **One step keeps both invariants.** -/
theorem step_inv (h : n.Inv) (e : RpcEvent σ) (hsafe : n.Safe e) : (n.step H e).2.Inv := by
  cases e with
  | invoke x target op row => exact h.invoke x target op row hsafe
  | send i r => exact h.send i r
  | deliver f known => exact h.deliver f known hsafe
  | collect i => exact h.collect i
  | timeout i => exact h.timeout i
  | setHost x host => exact ⟨h.ids.setNode x rfl rfl, h.trace.setNode x rfl (fun _ _ hi => hi)⟩
  | restart x epoch host => exact ⟨h.ids.restart x epoch host, h.trace.restart x epoch host⟩

theorem start_inv (epoch : NodeId → UInt64) (host : NodeId → Option σ) : (start epoch host).Inv := by
  refine ⟨⟨?_, ?_, ?_, ?_⟩, ?_, ?_, ?_, ?_⟩
  · exact fun c hc => absurd hc List.not_mem_nil
  · exact fun x => rfl
  · exact fun c hc => absurd hc List.not_mem_nil
  · exact fun i j c d k hi => by cases hi
  · exact fun f hf => absurd hf List.not_mem_nil
  · exact fun x k i hi => by cases hi
  · exact fun i c hc => by cases hc
  · exact fun i => Nat.zero_le 1

end Cluster

open Cluster in
/-- **A call returns what the target's host gave for it.**  In every run whose steps are safe, in every state: each result
that `invoke` has returned was produced by the target's host for that very call, no call was handed a second `Response`,
and a call that is over has no entry left. -/
theorem rpc_correlated {σ : Type} (H : VmHost σ) (epoch : NodeId → UInt64) (host : NodeId → Option σ)
    (es : List (RpcEvent σ)) (hsafe : Along (Cluster.step H) Cluster.Safe (.start epoch host) es) :
    ∀ n ∈ states (Cluster.step H) (.start epoch host) es, n.Correlated := fun n hn =>
  (of_along (I := Cluster.Inv) (fun _ e h hs => step_inv h e hs) (start_inv epoch host) hsafe n hn).trace.correlated

/-! ## A node that restarts -/

/-- Every node in its first incarnation, with an empty host. -/
def threeNodes : Cluster MemVmHost := .start (fun _ => 1) (fun _ => some .new)

/-- `a` has `b` create a VM. -/
def callB : List (RpcEvent MemVmHost) :=
  [.invoke ⟨"a"⟩ ⟨"b"⟩ (.create "x" .never none none none none) (some .alive), .send 0 .ok, .deliver 0 true]

theorem rpc_correlated_callB :
    ((run (Cluster.step MemVmHost.host) threeNodes (callB ++ [.deliver 1 true, .collect 0])).status 0).outcome =
        some (.reply (.ok (.created 0))) ∧
      ∀ n ∈ states (Cluster.step MemVmHost.host) threeNodes (callB ++ [.deliver 1 true, .collect 0]), n.Correlated :=
  ⟨by decide +kernel, rpc_correlated MemVmHost.host _ _ _ (by decide +kernel)⟩

/-- `a` restarts before the answer reaches it, and asks `c` for a list; the answer of `b` comes then. -/
def lateAnswer : List (RpcEvent MemVmHost) :=
  callB ++
    [.restart ⟨"a"⟩ 2 (some .new), .invoke ⟨"a"⟩ ⟨"c"⟩ .list (some .alive), .send 1 .ok, .deliver 1 true, .collect 1]

/-- The second call of `a` returns what `b` answered to the first: nothing was ever executed for it. -/
theorem late_answer_taken : ¬ ∀ (epoch : NodeId → UInt64) (host : NodeId → Option MemVmHost)
    (es : List (RpcEvent MemVmHost)), ∀ n ∈ states (Cluster.step MemVmHost.host) (.start epoch host) es, n.Correlated := by
  intro hall
  set last := run (Cluster.step MemVmHost.host) threeNodes lateAnswer with hlast
  have h : last.Correlated := hall (fun _ => 1) (fun _ => some .new) lateAnswer _ (run_mem_states _ _)
  have hcall : last.calls[1]? = some ⟨⟨"a"⟩, 2, ⟨"c"⟩, .list, some 1⟩ := by decide +kernel
  have hreturned : (last.status 1).outcome = some (.reply (.ok (.created 0))) := by decide +kernel
  have hnone : ∀ ex ∈ last.execs, ex.call ≠ 1 := by decide +kernel
  obtain ⟨ex, hmem, hex, -⟩ := h.produced 1 _ hcall _ (.inl hreturned)
  exact hnone ex hmem hex

end Celium
