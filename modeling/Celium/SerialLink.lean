import Celium.Lib.Runs
import Celium.HyperWire
/-!
# SerialLink — calls over the serial line to the kernel

`celmesh::hyper_serial::SerialHyperLink::call`.  The peer answers the request lines it gets with one line each, in
order; when, is an input: the bytes of a line may come in pieces.  Times are in nanoseconds.  A call holds the lock of
the link from its write to its end, so calls come one after the other; what has arrived and was not read, or has yet to
arrive, stays on the stream for the next one.  The part of a line that a call had read when its wait ended is gone with
its buffer.

`serde_json::from_str` is a parameter.  The peer keeps the connection open, so that a read ends with a line or not at
all.
-/
namespace Celium

open Runs

namespace SerialHyperLink

def maxFrameBytes : Nat := 64 * 1024

def callTimeout : Nat := 1_000_000_000

/-- A line without its newline. -/
def Line : Type := {bs : List UInt8 // '\n'.toUInt8 ∉ bs}

/-- When the reply to a request comes: the delay and the length of each piece that comes ahead of the rest, and the
delay of the rest. -/
structure Pace where
  ahead : List (Nat × Nat)
  rest : Nat

/-- The pieces of a reply with the times they arrive, where the stream is free for it from `t` on. -/
def arrivals (t : Nat) : List (Nat × Nat) → List (Nat × Nat)
  | []          => []
  | (d, n) :: p => (t + d, n) :: arrivals (t + d) p

/-- A reply that is on its way or waits to be read, from the byte `offset` on. -/
structure Incoming where
  /-- The request it answers: the number of requests before it. -/
  request : Nat
  offset : Nat
  ahead : List (Nat × Nat)
  /-- When the rest arrives, newline included. -/
  rest : Nat

/-- A line whose end does not come in time: what has come is read, and lost. -/
def Incoming.tear (r : Incoming) (deadline : Nat) : Incoming :=
  let read := r.ahead.takeWhile (fun p => p.1 ≤ deadline)
  { r with offset := read.foldl (fun n p => n + p.2) r.offset, ahead := r.ahead.dropWhile (fun p => p.1 ≤ deadline) }

/-- `read_line` with a deadline: the reply it reads the end of, and what is left on the stream. -/
def readLine (deadline : Nat) : List Incoming → Option Incoming × List Incoming
  | []      => (none, [])
  -- The bytes come in order: no later reply can be read before this one.
  | r :: rs => if r.rest ≤ deadline then (some r, rs) else (none, r.tear deadline :: rs)

inductive WriteResult where
  | done
  /-- No whole line gets to the peer. -/
  | failed (e : String)
  /-- The line is out, but the caller is told otherwise. -/
  | flushFailed (e : String)
deriving DecidableEq

/-- A call: its request, when it is made, and what the socket makes of the write. -/
structure LinkCall where
  req : HyperRequest
  time : Nat
  write : WriteResult

end SerialHyperLink

open SerialHyperLink

/-- The state of the stream, as the link and the peer have it. -/
structure SerialInner where
  /-- The request lines the peer has got. -/
  requests : List HyperRequest
  unread : List Incoming
  /-- When the last byte sent so far arrives. -/
  sentBy : Nat
  /-- When the lock is free. -/
  free : Nat

namespace SerialInner

variable (fromStr : String → Except String HyperReply) (pace : Nat → Pace) (answer : List HyperRequest → Line)
variable (s : SerialInner) (c : LinkCall)

/-- What `SerialHyperLink::connect` gives. -/
def connect : SerialInner := ⟨[], [], 0, 0⟩

/-- When a call gets the lock. -/
def start : Nat := max c.time s.free

/-- The reply to the request of a call, as it will arrive: after all that was sent before it. -/
def coming : Incoming :=
  let t := max s.sentBy (s.start c)
  let p := pace s.requests.length
  ⟨s.requests.length, 0, arrivals t p.ahead, p.ahead.foldl (fun n q => n + q.1) t + p.rest⟩

/-- The request line gets to the peer, and its reply is on its way. -/
def send : SerialInner :=
  { s with
    requests := s.requests ++ [c.req]
    unread := s.unread ++ [s.coming pace c]
    sentBy := (s.coming pace c).rest }

/-- The line a call reads: what was left of the peer's answer to the request it belongs to. -/
def received (r : Incoming) : List UInt8 :=
  ((answer (s.requests.take (r.request + 1))).val.drop r.offset) ++ ['\n'.toUInt8]

/-- What a call makes of the line it has read. -/
def decode (buf : List UInt8) : CelResult HyperReply :=
  match Text.ofUtf8 buf with
  | none => .error (.io "hyper-serial read: stream did not contain valid UTF-8")
  | some line =>
    if maxFrameBytes < buf.length then
      .error (.io ("hyper-serial: reply > " ++ toString maxFrameBytes ++ " bytes"))
    else match fromStr (Text.trimEnd line) with
      | .error e => .error (.io ("hyper-serial decode: " ++ e))
      | .ok reply => .ok reply

/-- `SerialHyperLink::call`. -/
def call : CelResult HyperReply × SerialInner :=
  match c.write with
  | .failed e => (.error (.io ("hyper-serial write: " ++ e)), { s with free := s.start c })
  | .flushFailed e => (.error (.io ("hyper-serial flush: " ++ e)), { s.send pace c with free := s.start c })
  | .done =>
    let s' := s.send pace c
    match readLine (s.start c + callTimeout) s'.unread with
    | (none, unread) =>
      -- Nothing takes the late reply off the stream.
      (.error (.timeout "hyper-serial: no reply in 1s"), { s' with unread, free := s.start c + callTimeout })
    | (some r, unread) => (decode fromStr (s'.received answer r), { s' with unread, free := max (s.start c) r.rest })

/-- A call that returns a reply returns the peer's answer to its own request. -/
def Own : Prop :=
  ∀ reply, (s.call fromStr pace answer c).1 = .ok reply →
    decode fromStr ((answer (s.requests ++ [c.req])).val ++ ['\n'.toUInt8]) = .ok reply

/-- Where the reply to an earlier request is still to be read, the call has no line of it to read: its write fails, or
the reply does not come within its wait either. -/
def Clear : Prop := ∀ r ∈ s.unread.head?, c.write = .done → s.start c + callTimeout < r.rest

instance : Decidable (s.Clear c) := inferInstanceAs (Decidable (∀ r ∈ s.unread.head?, _))

/-- The replies on the stream are to requests that were sent. -/
def Inv : Prop := ∀ r ∈ s.unread, r.request < s.requests.length

end SerialInner

namespace SerialHyperLink

def createdText : String := "\x7b\"reply\":\"created\",\"vm_id\":0\x7d"

def listedText : String := "\x7b\"reply\":\"listed\",\"rows\":[]\x7d"

/-- What is used of `serde_json`: it reads two of the lines the kernel writes. -/
structure Reads (fromStr : String → Except String HyperReply) : Prop where
  created : fromStr createdText = .ok (.created 0)
  listed : fromStr listedText = .ok (.listed [])

def listedLine : Line := ⟨Text.utf8 listedText, by decide +kernel⟩

/-- The line `createdText` after `n` blanks. -/
def paddedLine (n : Nat) : Line :=
  ⟨List.replicate n ' '.toUInt8 ++ Text.utf8 createdText, by
    rw [List.mem_append, List.mem_replicate, not_or]
    exact ⟨fun h => absurd h.2 (by decide), by decide +kernel⟩⟩

theorem paddedLine_drop (n : Nat) : (paddedLine n).val.drop n = Text.utf8 createdText :=
  List.drop_left' List.length_replicate

end SerialHyperLink

namespace SerialInner

variable {fromStr : String → Except String HyperReply} {pace : Nat → Pace} {answer : List HyperRequest → Line}
variable {s : SerialInner} {c : LinkCall}

theorem decode_text {text : String} {reply : HyperReply}
    (htext : Text.ofUtf8 (Text.utf8 text ++ ['\n'.toUInt8]) = some (text ++ "\n"))
    (htrim : Text.trimEnd (text ++ "\n") = text) (hlen : ¬ maxFrameBytes < (Text.utf8 text ++ ['\n'.toUInt8]).length)
    (h : fromStr text = .ok reply) : decode fromStr (Text.utf8 text ++ ['\n'.toUInt8]) = .ok reply := by
  simp only [decode, htext, if_neg hlen, htrim, h]

theorem decode_created (h : Reads fromStr) :
    decode fromStr (Text.utf8 createdText ++ ['\n'.toUInt8]) = .ok (.created 0) :=
  decode_text (by decide) (by decide) (by decide) h.created

theorem decode_listed (h : Reads fromStr) :
    decode fromStr (Text.utf8 listedText ++ ['\n'.toUInt8]) = .ok (.listed []) :=
  decode_text (by decide) (by decide) (by decide) h.listed

/-! ## One call -/

/-- The stream after a call does not depend on what the answers say. -/
theorem call_next (answer answer' : List HyperRequest → Line) (s : SerialInner) (c : LinkCall) :
    (s.call fromStr pace answer c).2 = (s.call fromStr pace answer' c).2 := by
  unfold call
  cases c.write with
  | failed e => rfl
  | flushFailed e => rfl
  | done =>
    dsimp only
    split <;> rfl

theorem send_inv (h : s.Inv) : (s.send pace c).Inv := by
  intro r hr
  rw [send, List.length_append, List.length_singleton]
  rcases List.mem_append.1 hr with hr | hr
  · exact (h r hr).trans (Nat.lt_succ_self _)
  · rw [List.mem_singleton.1 hr]
    exact Nat.lt_succ_self _

/-- Reading leaves replies to the same requests. -/
theorem readLine_requests {deadline : Nat} {rs : List Incoming} {r : Incoming} (h : r ∈ (readLine deadline rs).2) :
    ∃ r' ∈ rs, r'.request = r.request := by
  cases rs with
  | nil => cases h
  | cons q rs =>
    rw [readLine] at h
    split at h
    · exact ⟨r, List.mem_cons_of_mem q h, rfl⟩
    · rcases List.mem_cons.1 h with rfl | h
      · exact ⟨q, List.mem_cons_self, rfl⟩
      · exact ⟨r, List.mem_cons_of_mem q h, rfl⟩

theorem call_inv (s : SerialInner) (c : LinkCall) (h : s.Inv) : (s.call fromStr pace answer c).2.Inv := by
  have hsend : (s.send pace c).Inv := send_inv h
  have hread : ∀ deadline, ∀ r ∈ (readLine deadline (s.send pace c).unread).2, r.request < s.requests.length + 1 := by
    intro deadline r hr
    obtain ⟨r', hr', heq⟩ := readLine_requests hr
    simpa [send, heq] using hsend r' hr'
  unfold call
  cases c.write with
  | failed e => exact h
  | flushFailed e => exact hsend
  | done =>
    have hread := hread (s.start c + callTimeout)
    dsimp only
    split
    all_goals
      rename_i heq
      rw [heq] at hread
      intro r hr
      simpa [send] using hread r hr

/-- **When a call returns a reply**: its request was written, and the first reply on the stream came in time. -/
theorem call_ok {reply : HyperReply} :
    (s.call fromStr pace answer c).1 = .ok reply ↔
      c.write = .done ∧ ∃ r ∈ (s.send pace c).unread.head?, r.rest ≤ s.start c + callTimeout ∧
        decode fromStr ((s.send pace c).received answer r) = .ok reply := by
  unfold call
  cases c.write with
  | failed e => simp
  | flushFailed e => simp
  | done =>
    cases hu : (s.send pace c).unread with
    | nil => simp [hu, readLine]
    | cons r rs => by_cases hr : r.rest ≤ s.start c + callTimeout <;> simp [hu, readLine, hr]

/-- A reply to a request that was sent before is what the peer said then. -/
theorem received_before {r : Incoming} (h : r.request < s.requests.length) :
    (s.send pace c).received answer r = s.received answer r := by
  simp only [received, send]
  rw [List.take_append_of_le_length h]

theorem received_coming :
    (s.send pace c).received answer (s.coming pace c) =
      (answer (s.requests ++ [c.req])).val ++ ['\n'.toUInt8] := by
  simp only [received, send, coming, List.drop_zero]
  rw [List.take_of_length_le (by simp)]

/-- **A call that meets the condition returns only its own answer.** -/
theorem own_of_clear (h : s.Clear c) : s.Own fromStr pace answer c := by
  intro reply hreply
  obtain ⟨hw, r, hr, hin, hdec⟩ := call_ok.1 hreply
  cases hu : s.unread with
  | nil =>
    -- The only reply to come is the call's own, and none of it has been read.
    rw [send, hu, List.nil_append, List.head?_cons, Option.mem_some_iff] at hr
    rw [← hr, received_coming] at hdec
    exact hdec
  | cons r' rs =>
    rw [send, hu, List.cons_append, List.head?_cons, Option.mem_some_iff] at hr
    have hlate := h r' (by rw [hu]; rfl) hw
    rw [hr] at hlate
    exact absurd hin (Nat.not_le.2 hlate)

/-- **A call that does not returns another's answer, for some peer.** -/
theorem clear_of_own (hreads : Reads fromStr) (hinv : s.Inv) (h : ∀ answer, s.Own fromStr pace answer c) :
    s.Clear c := by
  intro r hr hw
  by_contra hin
  have hmem : r.request < s.requests.length := hinv r (List.mem_of_mem_head? hr)
  -- The peer says `created` up to here, behind as much as earlier calls have read of it, and `listed` now.
  let answer (reqs : List HyperRequest) : Line :=
    if reqs.length ≤ s.requests.length then paddedLine r.offset else listedLine
  have hreceived : s.received answer r = Text.utf8 createdText ++ ['\n'.toUInt8] := by
    have hle : (s.requests.take (r.request + 1)).length ≤ s.requests.length := List.length_take_le' _ _
    simp only [received, answer, if_pos hle, paddedLine_drop]
  have hown : (answer (s.requests ++ [c.req])).val = Text.utf8 listedText := by
    simp [answer, listedLine]
  have hcall : (s.call fromStr pace answer c).1 = .ok (.created 0) := by
    refine call_ok.2 ⟨hw, r, ?_, Nat.not_lt.1 hin, ?_⟩
    · rw [send, List.head?_append, Option.mem_def.1 hr]
      rfl
    · rw [received_before hmem, hreceived, decode_created hreads]
  have hsame := h answer _ hcall
  rw [hown, decode_listed hreads] at hsame
  cases hsame

end SerialInner

/-! ## Every run of calls -/

/-- **Whatever the peer answers, every reply that a call returns is the peer's answer to its own request, exactly in the
runs in which no call that gets its request out finds the reply to an earlier one outstanding and coming within its
wait.** -/
theorem serial_own_iff {fromStr : String → Except String HyperReply} (hreads : Reads fromStr) (pace : Nat → Pace)
    (calls : List LinkCall) (any : List HyperRequest → Line) :
    (∀ answer, Along (SerialInner.call fromStr pace answer) (SerialInner.Own fromStr pace answer) .connect calls) ↔
      Along (SerialInner.call fromStr pace any) SerialInner.Clear .connect calls := by
  have : Nonempty (List HyperRequest → Line) := ⟨any⟩
  refine forall_along_iff (I := SerialInner.Inv) (fun answer s c => SerialInner.call_next answer any s c)
    (fun s c h => SerialInner.call_inv s c h) (fun s c h => ?_) (fun r hr => absurd hr List.not_mem_nil) calls
  exact ⟨SerialInner.clear_of_own hreads h, fun hclear answer => SerialInner.own_of_clear hclear⟩

namespace SerialHyperLink

/-- The two lines, as `serde_json` reads them. -/
def readTwo (text : String) : Except String HyperReply :=
  if text = createdText then .ok (.created 0)
  else if text = listedText then .ok (.listed [])
  else .error "EOF while parsing a value at line 1 column 0"

/-- A peer that says `created` to its first request and `listed` to the others. -/
def createdThenListed (reqs : List HyperRequest) : Line := if reqs.length = 1 then paddedLine 0 else listedLine

/-- The first reply comes after two seconds, the others after a millisecond. -/
def firstLate (k : Nat) : Pace := ⟨[], if k = 0 then 2_000_000_000 else 1_000_000⟩

/-- A `create` at time 0, and a `list` three seconds later. -/
def createThenList : List LinkCall :=
  [⟨.create "web" none none none none, 0, .done⟩, ⟨.list, 3_000_000_000, .done⟩]

theorem readTwo_reads : Reads readTwo := ⟨by decide, by decide⟩

end SerialHyperLink

theorem serial_own_prompt :
    Reads readTwo ∧ ∀ answer, Along (SerialInner.call readTwo (fun _ => ⟨[(1_000, 5)], 1_000_000⟩) answer)
      (SerialInner.Own readTwo (fun _ => ⟨[(1_000, 5)], 1_000_000⟩) answer) .connect createThenList :=
  ⟨readTwo_reads, (serial_own_iff readTwo_reads _ createThenList createdThenListed).2 (by decide)⟩

/-- **A late reply answers the next call.**  The `create` times out; the `list` then returns its `created`. -/
theorem late_reply_shifts :
    answers (SerialInner.call readTwo firstLate createdThenListed) .connect createThenList =
        [.error (.timeout "hyper-serial: no reply in 1s"), .ok (.created 0)] ∧
      ¬ Along (SerialInner.call readTwo firstLate createdThenListed)
        (SerialInner.Own readTwo firstLate createdThenListed) .connect createThenList := by
  refine ⟨by decide, fun h => ?_⟩
  have hown := h.2.1 (.created 0) (by decide)
  revert hown
  decide

end Celium
