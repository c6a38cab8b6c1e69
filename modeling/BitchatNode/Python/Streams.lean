-- Tasks that read a byte stream with `readexactly`. The bytes arrive in chunks,
-- the task goes on as far as they last, and a read that still waits at the end
-- of the stream raises `IncompleteReadError`.
import BitchatNode.Python.Bytes

namespace python

/-- A task that reads a stream. What it reports on the way is of type `ε`. -/
structure StreamTask (σ ε : Type) where
  /-- The `n` of the `readexactly(n)` that it waits for, `none` once it has
  ended. -/
  wants : σ → Option Nat
  /-- What it does with the bytes that it reads, and what it reports. -/
  takes : σ → Bytes → σ × List ε
  /-- What it does where the read raises. -/
  fails : σ → σ
  /-- Reads of no bytes at all come to an end. -/
  rank : σ → Nat
  rank_lt : ∀ s, wants s = some 0 → rank (takes s []).1 < rank s

/-- A task, the bytes that have arrived for it and were not read, and what it
has reported so far. -/
structure Listener (σ ε : Type) where
  state : σ
  buffer : Bytes
  reported : List ε

namespace StreamTask

variable {σ ε : Type} (task : StreamTask σ ε)

/-- The task reads as long as the bytes last. -/
def resume (s : σ) (buffer : Bytes) (reported : List ε) : Listener σ ε :=
  match _hwants : task.wants s with
  | none => ⟨s, buffer, reported⟩
  | some n =>
    if _hlast : n ≤ buffer.length then
      resume (task.takes s (buffer.take n)).1 (buffer.drop n)
        (reported ++ (task.takes s (buffer.take n)).2)
    else ⟨s, buffer, reported⟩
termination_by (buffer.length, task.rank s)
decreasing_by
  rcases Nat.eq_zero_or_pos n with hzero | hpos
  · subst hzero
    rw [List.drop_zero, List.take_zero]
    exact Prod.Lex.right _ (task.rank_lt s _hwants)
  · apply Prod.Lex.left
    rw [List.length_drop]
    omega

/-- A chunk arrives. -/
def feed (l : Listener σ ε) (chunk : Bytes) : Listener σ ε :=
  task.resume l.state (l.buffer ++ chunk) l.reported

/-- The stream ends. -/
def feed_eof (l : Listener σ ε) : Listener σ ε :=
  if task.wants l.state = none then l else { l with state := task.fails l.state }

/-- The task from its start to the end of the stream. -/
def listen (start : σ) (chunks : List Bytes) : Listener σ ε :=
  task.feed_eof (chunks.foldl task.feed (task.resume start [] []))

variable {task}

theorem resume_ended {s : σ} (h : task.wants s = none) (buffer : Bytes) (reported : List ε) :
    task.resume s buffer reported = ⟨s, buffer, reported⟩ := by
  unfold resume
  split
  · rfl
  · rename_i n hwants
    rw [h] at hwants
    cases hwants

/-- A read that the bytes do not suffice for waits. -/
theorem resume_waits {s : σ} {n : Nat} (h : task.wants s = some n) {buffer : Bytes}
    (hshort : buffer.length < n) (reported : List ε) :
    task.resume s buffer reported = ⟨s, buffer, reported⟩ := by
  unfold resume
  split
  · rfl
  · rename_i m hwants
    rw [h, Option.some.injEq] at hwants
    subst hwants
    rw [dif_neg (by omega)]

/-- A read takes the next bytes. -/
theorem resume_reads {s : σ} {n : Nat} (h : task.wants s = some n) {buffer : Bytes}
    (hlast : n ≤ buffer.length) (reported : List ε) :
    task.resume s buffer reported =
      task.resume (task.takes s (buffer.take n)).1 (buffer.drop n)
        (reported ++ (task.takes s (buffer.take n)).2) := by
  conv_lhs => unfold resume
  split
  · rename_i hwants
    rw [h] at hwants
    cases hwants
  · rename_i m hwants
    rw [h, Option.some.injEq] at hwants
    subst hwants
    rw [dif_pos hlast]

theorem resume_reads_append {s : σ} {data : Bytes} (h : task.wants s = some data.length)
    (rest : Bytes) (reported : List ε) :
    task.resume s (data ++ rest) reported =
      task.resume (task.takes s data).1 rest (reported ++ (task.takes s data).2) := by
  have hlast : data.length ≤ (data ++ rest).length := by
    rw [List.length_append]
    omega
  rw [resume_reads h hlast, List.take_left, List.drop_left]

/-- It makes no difference how far the task had got when the chunk arrived. -/
theorem feed_resume (s : σ) (buffer : Bytes) (reported : List ε) (chunk : Bytes) :
    task.feed (task.resume s buffer reported) chunk = task.resume s (buffer ++ chunk) reported := by
  induction s, buffer, reported using resume.induct task with
  | case1 s buffer reported hwants =>
    rw [resume_ended hwants]
    rfl
  | case2 s buffer reported n hwants hlast ih =>
    have hlonger : n ≤ (buffer ++ chunk).length := by
      rw [List.length_append]
      omega
    rw [resume_reads hwants hlast, ih, resume_reads hwants hlonger,
      List.take_append_of_le_length hlast, List.drop_append_of_le_length hlast]
  | case3 s buffer reported n hwants hlast =>
    rw [resume_waits hwants (by omega)]
    rfl

/-- The stream may be split into chunks in any way. -/
theorem listen_eq (start : σ) (chunks : List Bytes) :
    task.listen start chunks = task.feed_eof (task.resume start chunks.flatten []) := by
  have hfeeds (buffer : Bytes) : chunks.foldl task.feed (task.resume start buffer []) =
      task.resume start (buffer ++ chunks.flatten) [] := by
    induction chunks generalizing buffer with
    | nil => rw [List.foldl_nil, List.flatten_nil, List.append_nil]
    | cons chunk chunks ih =>
      rw [List.foldl_cons, feed_resume, ih, List.flatten_cons, List.append_assoc]
  unfold listen
  rw [hfeeds, List.nil_append]

end StreamTask

end python
