import LidarSweep.Proofs.Assembler.Checked

/-!
# A buffer is a list that bytes are appended to

Whoever writes into a buffer is lent memory that others have written to before, may fail when it has
changed it already, and may count more or fewer bytes than it wrote.  Seen from outside none of this
shows: `Appends` says what a request does to a list of bytes, and knows nothing of the memory behind
them.  Of what a client is lent it knows the size alone.

Each request is answered as `Appends` says (`appends_answer`), and so is every row of requests
(`appendsAll_answerAll`).  What was appended stays until the list is cleared
(`AppendsAll.isPrefix`), which need only be seen of the list.
-/

namespace LidarSweep.FrameBuffer

open Checked

/-! ### Requests -/

/-- A writer together with whatever it can reach besides the bytes that it is lent, `σ`.  It may
change those bytes but not their number, for they are a slice. -/
structure Client (σ : Type) where
  run : List UInt8 → σ → (List UInt8 × Except Error Nat) × σ
  length_run : ∀ lent env, (run lent env).1.1.length = lent.length

inductive Request (σ : Type) where
  | write (reserve : Nat) (client : Client σ)
  | clear
  | read

inductive Reply where
  | wrote (result : Except Error Nat)
  | done
  | bytes (bytes : List UInt8)

variable {σ : Type}

/-- The client as a writer that finds everything besides its bytes at `env`. -/
def Client.writer (client : Client σ) (env : σ) (lent : List UInt8) :
    List UInt8 × Except Error Nat :=
  (client.run lent env).1

/-- Lends `reserve` bytes to a client, which may change what it reaches besides them. -/
def lendTo (b : FrameBuffer) (reserve : Nat) (client : Client σ) (env : σ) :
    (FrameBuffer × Except Error Nat) × σ :=
  b.writeWithM (m := StateM σ) reserve client.run env

/-- A client whose bytes are left is run, once. -/
theorem lendTo_of_fits {b : FrameBuffer} {reserve : Nat} (h : reserve ≤ b.remaining)
    (client : Client σ) (env : σ) :
    b.lendTo reserve client env =
      (b.writeWith reserve (client.writer env), (client.run (b.lent reserve) env).2) := by
  rw [lendTo, writeWithM, dif_pos h, writeWith_of_fits h]
  rfl

/-- A client that asks for more is not run. -/
theorem lendTo_of_full {b : FrameBuffer} {reserve : Nat} (h : ¬ reserve ≤ b.remaining)
    (client : Client σ) (env : σ) :
    b.lendTo reserve client env =
      ((b, .error (.invalidPacket (.bufferOverflow b.length reserve b.capacity))), env) := by
  rw [lendTo, writeWithM, dif_neg h]
  rfl

def answer (b : FrameBuffer) (env : σ) : Request σ → FrameBuffer × σ × Reply
  | .write reserve client =>
    let ((b, result), env) := b.lendTo reserve client env
    (b, env, .wrote result)
  | .clear => (b.clear, env, .done)
  | .read => (b, env, .bytes b.contents)

def answerAll (b : FrameBuffer) (env : σ) : List (Request σ) → FrameBuffer × σ × List Reply
  | [] => (b, env, [])
  | request :: requests =>
    let (b, env, reply) := b.answer env request
    let (b, env, replies) := b.answerAll env requests
    (b, env, reply :: replies)

/-! ### The list -/

/-- What a request does to a list of at most `capacity` bytes and to what its client can reach.  A
client is called exactly if the bytes that it asks for are left. -/
inductive Appends (capacity : Nat) :
    List UInt8 → σ → Request σ → List UInt8 → σ → Reply → Prop where
  | refused {bytes : List UInt8} {env : σ} {reserve : Nat} {client : Client σ}
      (hFull : capacity < bytes.length + reserve) :
      Appends capacity bytes env (.write reserve client) bytes env
        (.wrote (.error (.invalidPacket (.bufferOverflow bytes.length reserve capacity))))
  | failed {bytes lent slice : List UInt8} {env env' : σ} {reserve : Nat} {client : Client σ}
      {e : Error} (hRoom : bytes.length + reserve ≤ capacity) (hLent : lent.length = reserve)
      (hRun : client.run lent env = ((slice, .error e), env')) :
      Appends capacity bytes env (.write reserve client) bytes env' (.wrote (.error e))
  | appended {bytes lent slice : List UInt8} {env env' : σ} {reserve count : Nat}
      {client : Client σ} (hRoom : bytes.length + reserve ≤ capacity)
      (hLent : lent.length = reserve) (hRun : client.run lent env = ((slice, .ok count), env')) :
      Appends capacity bytes env (.write reserve client)
        (bytes ++ slice.take (min count reserve)) env' (.wrote (.ok (min count reserve)))
  | cleared {bytes : List UInt8} {env : σ} : Appends capacity bytes env .clear [] env .done
  | read {bytes : List UInt8} {env : σ} :
      Appends capacity bytes env .read bytes env (.bytes bytes)

inductive AppendsAll (capacity : Nat) :
    List UInt8 → σ → List (Request σ) → List UInt8 → σ → List Reply → Prop where
  | nil {bytes : List UInt8} {env : σ} : AppendsAll capacity bytes env [] bytes env []
  | cons {bytes bytes' bytes'' : List UInt8} {env env' env'' : σ} {request : Request σ}
      {requests : List (Request σ)} {reply : Reply} {replies : List Reply}
      (first : Appends capacity bytes env request bytes' env' reply)
      (others : AppendsAll capacity bytes' env' requests bytes'' env'' replies) :
      AppendsAll capacity bytes env (request :: requests) bytes'' env'' (reply :: replies)

section
variable {capacity : Nat} {bytes bytes' : List UInt8} {env env' : σ} {request : Request σ}
  {requests : List (Request σ)} {reply : Reply} {replies : List Reply}

theorem Appends.isPrefix (h : Appends capacity bytes env request bytes' env' reply)
    (hKept : request ≠ .clear) : bytes <+: bytes' := by
  cases h with
  | refused => exact List.prefix_refl _
  | failed => exact List.prefix_refl _
  | appended => exact List.prefix_append _ _
  | cleared => exact absurd rfl hKept
  | read => exact List.prefix_refl _

/-- What is in the list stays in front of it until it is cleared. -/
theorem AppendsAll.isPrefix (h : AppendsAll capacity bytes env requests bytes' env' replies)
    (hKept : .clear ∉ requests) : bytes <+: bytes' := by
  induction h with
  | nil => exact List.prefix_refl _
  | cons first others ih =>
    rw [List.mem_cons, not_or] at hKept
    exact (first.isPrefix (Ne.symm hKept.1)).trans (ih hKept.2)

end

/-! ### The buffer as the list -/

/-- **A client is answered as the list would answer it**, whatever was in the memory before. -/
theorem appends_lendTo (b : FrameBuffer) (reserve : Nat) (client : Client σ) (env : σ) :
    Appends b.capacity b.contents env (.write reserve client)
        (b.lendTo reserve client env).1.1.contents (b.lendTo reserve client env).2
        (.wrote (b.lendTo reserve client env).1.2) ∧
      (b.lendTo reserve client env).1.1.capacity = b.capacity := by
  have hLength : b.contents.length = b.length := length_contents b
  have hBound : b.length ≤ b.capacity := b.length_le
  by_cases hFits : reserve ≤ b.remaining
  · have hRoom : b.contents.length + reserve ≤ b.capacity := by
      rw [remaining] at hFits
      omega
    have hLent : (b.lent reserve).length = reserve := length_lent hFits
    have hSlice := client.length_run (b.lent reserve) env
    rw [lendTo_of_fits hFits]
    -- What the client did decides what becomes of the memory that it had.
    rcases hRun : client.run (b.lent reserve) env with ⟨⟨slice, outcome⟩, env'⟩
    have hWriter : client.writer env (b.lent reserve) = (slice, outcome) := by
      rw [Client.writer, hRun]
    rw [hRun, hLent] at hSlice
    cases outcome with
    | error e =>
      obtain ⟨b', hWrite, hContents, hCapacity⟩ := writeWith_of_error hFits hWriter
      rw [hWrite]
      refine ⟨?_, hCapacity⟩
      rw [hContents]
      exact .failed hRoom hLent hRun
    | ok count =>
      obtain ⟨b', hWrite, hContents, hCapacity⟩ := writeWith_of_ok hFits hWriter hSlice
      have hTaken : slice.take count = slice.take (min count reserve) := by
        rw [← hSlice, ← List.take_eq_take_min]
      rw [hWrite]
      refine ⟨?_, hCapacity⟩
      rw [hContents, hTaken]
      exact .appended hRoom hLent hRun
  · have hOver : b.capacity < b.contents.length + reserve := by
      rw [remaining] at hFits
      omega
    rw [lendTo_of_full hFits, ← hLength]
    exact ⟨.refused hOver, rfl⟩

theorem appends_answer (b : FrameBuffer) (env : σ) (request : Request σ) :
    Appends b.capacity b.contents env request (b.answer env request).1.contents
        (b.answer env request).2.1 (b.answer env request).2.2 ∧
      (b.answer env request).1.capacity = b.capacity := by
  cases request with
  | write reserve client => exact appends_lendTo b reserve client env
  | clear =>
    have hNothing : b.clear.contents = [] := by
      rw [contents_eq_take, clear, List.take_zero]
    refine ⟨?_, rfl⟩
    simp only [answer, hNothing]
    exact .cleared
  | read => exact ⟨.read, rfl⟩

theorem appendsAll_answerAll (b : FrameBuffer) (env : σ) (requests : List (Request σ)) :
    AppendsAll b.capacity b.contents env requests (b.answerAll env requests).1.contents
        (b.answerAll env requests).2.1 (b.answerAll env requests).2.2 ∧
      (b.answerAll env requests).1.capacity = b.capacity := by
  induction requests generalizing b env with
  | nil => exact ⟨.nil, rfl⟩
  | cons request requests ih =>
    obtain ⟨hFirst, hCapacity⟩ := appends_answer b env request
    obtain ⟨hOthers, hSame⟩ := ih (b.answer env request).1 (b.answer env request).2.1
    rw [hCapacity] at hOthers hSame
    exact ⟨.cons hFirst hOthers, hSame⟩

/-! ### Within the memory -/

/-- A buffer that has not grown, and whose sums, differences and slices a machine can make. -/
structure Sound (b : FrameBuffer) (capacity : Nat) : Prop where
  capacity_eq : b.capacity = capacity
  length_le : b.length ≤ capacity
  length_eq : b.length = b.contents.length
  remaining_eq : sub? b.capacity b.length = some b.remaining
  slice_eq : slice? b.memory.toList 0 b.length = some b.contents
  write_eq : capacity < USize.size → ∀ (reserve : Nat) (writer : Writer),
    b.writeWith? reserve (fun lent => some (writer lent)) = some (b.writeWith reserve writer)

theorem sound (b : FrameBuffer) : b.Sound b.capacity where
  capacity_eq := rfl
  length_le := b.length_le
  length_eq := (length_contents b).symm
  remaining_eq := sub?_of_le b.length_le
  slice_eq := by
    have hBound : b.length ≤ b.memory.toList.length := b.length_le
    rw [slice?_of_le (Nat.zero_le _) hBound, contents_eq_take]
    rfl
  write_eq hCapacity _ _ := writeWith?_eq hCapacity fun _ _ => rfl

/-- **A buffer is a list of at most `capacity` bytes that bytes are appended to.**  All requests are
answered as that list answers them.  At every moment the buffer is within its memory, it gives as
frame data what it has as contents, and those stay in front until a request to clear it. -/
theorem refines_list (capacity : Nat) (env : σ) (requests : List (Request σ)) :
    ∃ b env' replies, (ofCapacity capacity).answerAll env requests = (b, env', replies) ∧
      AppendsAll capacity [] env requests b.contents env' replies ∧
      b.Sound capacity ∧
      b.freeze = b.contents ∧
      ∀ later : List (Request σ), .clear ∉ later →
        b.contents <+: (b.answerAll env' later).1.contents := by
  obtain ⟨hAll, hCapacity⟩ := appendsAll_answerAll (ofCapacity capacity) env requests
  rw [capacity_ofCapacity] at hAll hCapacity
  rw [contents_ofCapacity] at hAll
  have hSound := sound ((ofCapacity capacity).answerAll env requests).1
  rw [hCapacity] at hSound
  refine ⟨_, _, _, rfl, hAll, hSound, freeze_eq_contents _, ?_⟩
  intro later hKept
  exact (appendsAll_answerAll _ _ later).1.isPrefix hKept

/-- A client that counts its calls, fills its slice with `byte` and does as it is told. -/
def Client.painter (byte : UInt8) (outcome : Except Error Nat) : Client Nat where
  run lent calls := ((List.replicate lent.length byte, outcome), calls + 1)
  length_run _ _ := List.length_replicate

/-- In eight bytes: a client fails when it has changed the memory, one counts fewer bytes than it
wrote, one counts more, and one asks for too many. -/
def painters : List (Request Nat) :=
  [.write 6 (.painter 1 (.error (.unexpectedEnd 6))), .write 4 (.painter 2 (.ok 3)),
   .write 3 (.painter 3 (.ok 99)), .write 3 (.painter 4 (.ok 3))]

theorem refines_list_painters :
    ∃ b replies, (ofCapacity 8).answerAll 0 painters = (b, 3, replies) ∧
      b.contents = [2, 2, 2, 3, 3, 3] ∧
      AppendsAll 8 [] 0 painters b.contents 3 replies ∧ b.Sound 8 ∧
      .clear ∉ [Request.write 2 (.painter 5 (.ok 2)), .read] ∧
      b.contents <+: (b.answerAll 3 [.write 2 (.painter 5 (.ok 2)), .read]).1.contents := by
  obtain ⟨b, calls, replies, hAnswers, hAppends, hSound, -, hKept⟩ := refines_list 8 0 painters
  have hCalls : ((ofCapacity 8).answerAll 0 painters).2.1 = 3 := by decide
  have hContents : ((ofCapacity 8).answerAll 0 painters).1.contents = [2, 2, 2, 3, 3, 3] := by
    decide
  rw [hAnswers] at hCalls hContents
  simp only at hCalls hContents
  subst hCalls
  have hLater : .clear ∉ [Request.write 2 (.painter 5 (.ok 2)), .read] := by simp
  exact ⟨b, replies, hAnswers, hContents, hAppends, hSound, hLater, hKept _ hLater⟩

end LidarSweep.FrameBuffer
