import Celium.Lib.Runs
import Mathlib.Data.List.Induction
/-!
# LineStream — lines out of a stream of symbols

A reader takes a stream symbol by symbol into a buffer of fixed size.  A separator ends the line; some symbols are
dropped; what finds no room is dropped too, and then the line counts as too long.  A server answers every line when its
separator comes in.  Read by symbols or cut into lines first, the answers and the state are the same (`serve_eq_lines`).
-/
namespace LineStream

open Runs

variable {α ι β σ : Type}

/-- How lines stand in a stream. -/
structure Format (α : Type) where
  sep : α
  skip : α → Bool
  cap : Nat

/-- A line without its separator. -/
def Line (sep : α) : Type := {l : List α // sep ∉ l}

namespace Line

def empty (sep : α) : Line sep := ⟨[], List.not_mem_nil⟩

variable {sep : α}

def snoc (l : Line sep) (a : α) (h : a ≠ sep) : Line sep :=
  ⟨l.val ++ [a], fun hmem => (List.mem_append.1 hmem).elim l.property fun h' => h (List.mem_singleton.1 h').symm⟩

end Line

/-! ## The reader -/

/-- What has been read of a line: what the buffer holds of it, and whether more came than it holds. -/
structure Reader (α : Type) where
  out : List α
  overflow : Bool

namespace Reader

def idle : Reader α := ⟨[], false⟩

def put (f : Format α) (r : Reader α) (a : α) : Reader α :=
  if f.skip a then r
  else if r.out.length < f.cap then { r with out := r.out ++ [a] }
  else { r with overflow := true }

/-- What the line is, at its end. -/
def line (r : Reader α) : Option (List α) := if r.overflow then none else some r.out

end Reader

/-- What a line that is not too long holds. -/
def Format.content (f : Format α) (l : List α) : Option (List α) :=
  let kept := l.filter (fun a => !f.skip a)
  if kept.length ≤ f.cap then some kept else none

/-- **The buffer holds the start of the line, and knows whether that is all.** -/
theorem foldl_put (f : Format α) (l : List α) :
    l.foldl (Reader.put f) .idle =
      ⟨(l.filter (fun a => !f.skip a)).take f.cap, decide (f.cap < (l.filter (fun a => !f.skip a)).length)⟩ := by
  induction l using List.reverseRecOn with
  | nil => simp [Reader.idle]
  | append_singleton l a ih =>
    rw [List.foldl_append, List.foldl_cons, List.foldl_nil, ih, List.filter_append, Reader.put]
    split
    · rename_i hskip
      simp [hskip]
    · rename_i hskip
      have hkeep : [a].filter (fun a => !f.skip a) = [a] := by simp [hskip]
      rw [hkeep, List.length_append, List.length_singleton, List.length_take]
      split
      · rename_i hroom
        have hlt : (l.filter (fun a => !f.skip a)).length < f.cap := by omega
        rw [List.take_of_length_le (Nat.le_of_lt hlt), List.take_of_length_le (by simp; omega)]
        rw [decide_eq_false (Nat.lt_asymm hlt), decide_eq_false (Nat.not_lt.2 hlt)]
      · rename_i hroom
        have hge : f.cap ≤ (l.filter (fun a => !f.skip a)).length := by omega
        rw [List.take_append_of_le_length hge, decide_eq_true (Nat.lt_succ_of_le hge)]

theorem line_foldl_put (f : Format α) (l : List α) : (l.foldl (Reader.put f) .idle).line = f.content l := by
  rw [foldl_put, Reader.line, Format.content]
  by_cases h : (l.filter (fun a => !f.skip a)).length ≤ f.cap
  · simp [h, List.take_of_length_le h]
  · simp [h, Nat.not_le.1 h]

/-! ## The server -/

variable [DecidableEq α]

/-- One symbol: a separator ends the line, which is answered, and a new line begins.  What comes with a symbol goes
into the answer. -/
def serve (f : Format α) (handle : σ → ι → Option (List α) → List β × σ) (s : Reader α × σ) (input : ι × α) :
    List β × (Reader α × σ) :=
  if input.2 = f.sep then
    ((handle s.2 input.1 s.1.line).1, (.idle, (handle s.2 input.1 s.1.line).2))
  else ([], (s.1.put f input.2, s.2))

/-- One line. -/
def serveLine (f : Format α) (handle : σ → ι → Option (List α) → List β × σ) (s : σ) (input : ι × Line f.sep) :
    List β × σ := handle s input.1 (f.content input.2.val)

/-- The lines a stream completes, where the line it is in began with `l`. -/
def lines (sep : α) : Line sep → List (ι × α) → List (ι × Line sep)
  | _, []          => []
  | l, (i, a) :: s => if h : a = sep then (i, l) :: lines sep (.empty sep) s else lines sep (l.snoc a h) s

/-- The line a stream ends in. -/
def unfinished (sep : α) : Line sep → List (ι × α) → Line sep
  | l, []          => l
  | l, (_, a) :: s => if h : a = sep then unfinished sep (.empty sep) s else unfinished sep (l.snoc a h) s

/-- **A server that reads symbol by symbol answers line by line**: it gives the answers to the lines the stream
completes, in their order, and nothing else, and goes through the same states; the reader is left with the start of the
line that is not complete. -/
theorem serve_eq_lines (f : Format α) (handle : σ → ι → Option (List α) → List β × σ) (s : σ) (l : Line f.sep)
    (stream : List (ι × α)) :
    (answers (serve f handle) (l.val.foldl (Reader.put f) .idle, s) stream).flatten =
        (answers (serveLine f handle) s (lines f.sep l stream)).flatten ∧
      run (serve f handle) (l.val.foldl (Reader.put f) .idle, s) stream =
        ((unfinished f.sep l stream).val.foldl (Reader.put f) .idle,
          run (serveLine f handle) s (lines f.sep l stream)) := by
  induction stream generalizing s l with
  | nil => exact ⟨rfl, rfl⟩
  | cons input stream ih =>
    obtain ⟨i, a⟩ := input
    by_cases h : a = f.sep
    · have hstep : serve f handle (l.val.foldl (Reader.put f) .idle, s) (i, a) =
          ((serveLine f handle s (i, l)).1, (.idle, (serveLine f handle s (i, l)).2)) := by
        rw [serve, if_pos h]
        simp only [line_foldl_put, serveLine]
      have hlines : lines f.sep l ((i, a) :: stream) = (i, l) :: lines f.sep (.empty f.sep) stream := dif_pos h
      have hend : unfinished f.sep l ((i, a) :: stream) = unfinished f.sep (.empty f.sep) stream := dif_pos h
      obtain ⟨hanswers, hrun⟩ := ih (serveLine f handle s (i, l)).2 (.empty f.sep)
      rw [hlines, hend]
      simp only [answers, run, hstep, List.flatten_cons]
      exact ⟨congrArg _ hanswers, hrun⟩
    · have hstep : serve f handle (l.val.foldl (Reader.put f) .idle, s) (i, a) =
          ([], ((l.snoc a h).val.foldl (Reader.put f) .idle, s)) := by
        rw [serve, if_neg h]
        simp only [Line.snoc, List.foldl_append, List.foldl_cons, List.foldl_nil]
      have hlines : lines f.sep l ((i, a) :: stream) = lines f.sep (l.snoc a h) stream := dif_neg h
      have hend : unfinished f.sep l ((i, a) :: stream) = unfinished f.sep (l.snoc a h) stream := dif_neg h
      rw [hlines, hend]
      simp only [answers, run, hstep, List.flatten_cons, List.nil_append]
      exact ih s (l.snoc a h)

/-- A line that is sent with its separator is a line of the stream. -/
theorem lines_line (sep : α) (l l' : Line sep) (i : ι) (rest : List (ι × α)) :
    lines sep l ((l'.val ++ [sep]).map (fun a => (i, a)) ++ rest) =
        (i, ⟨l.val ++ l'.val, fun h => (List.mem_append.1 h).elim l.property l'.property⟩) ::
          lines sep (.empty sep) rest ∧
      unfinished sep l ((l'.val ++ [sep]).map (fun a => (i, a)) ++ rest) = unfinished sep (.empty sep) rest := by
  obtain ⟨body, hbody⟩ := l'
  induction body generalizing l with
  | nil =>
    refine ⟨(dif_pos rfl).trans ?_, dif_pos rfl⟩
    simp only [List.append_nil]
    rfl
  | cons a body ih =>
    have ha : a ≠ sep := fun h => hbody (h ▸ List.mem_cons_self)
    obtain ⟨hlines, hend⟩ := ih (l.snoc a ha) (fun h => hbody (List.mem_cons_of_mem _ h))
    refine ⟨(dif_neg ha).trans (hlines.trans ?_), (dif_neg ha).trans hend⟩
    simp [Line.snoc, List.append_assoc]

/-- A stream that nothing comes with, cut into its lines and what is left. -/
def cut (sep : α) (stream : List α) : List (Line sep) × Line sep :=
  (((lines sep (.empty sep) (stream.map (fun a => ((), a)))).map Prod.snd),
    unfinished sep (.empty sep) (stream.map (fun a => ((), a))))

/-- **A line that is sent whole is cut off whole.** -/
theorem cut_line (sep : α) (l : Line sep) (rest : List α) :
    cut sep (l.val ++ sep :: rest) = (l :: (cut sep rest).1, (cut sep rest).2) := by
  obtain ⟨hlines, hend⟩ := lines_line sep (.empty sep) l () (rest.map (fun a => ((), a)))
  have hstream : (l.val ++ sep :: rest).map (fun a => ((), a)) =
      (l.val ++ [sep]).map (fun a => ((), a)) ++ rest.map (fun a => ((), a)) := by
    simp [List.append_assoc]
  rw [cut, hstream, hlines, hend]
  rfl

end LineStream
