import Mathlib

/-!
Messages from a stream that arrives in pieces. If the decoder reads back what the sender writes, then
the pieces do not matter.
-/

namespace Deframing
open List

/-- What a decoder finds at the front of a buffer. -/
inductive Found (γ : Type) where
  | incomplete
  | corrupt
  | frame (size : Nat) (content : γ)
  deriving DecidableEq

/-- The contents found, the position after them, and whether the stream is still sound. -/
structure Scan (γ : Type) where
  contents : List γ
  position : Nat
  sound : Bool

variable {α β γ : Type}

/-- Take frames from the buffer, from the given position on; `none` if the fuel runs out. -/
def scan (decode : List α → Found γ) (buf : List α) : (fuel : Nat) → (position : Nat) → Option (Scan γ)
  | 0, _ => none
  | fuel + 1, position =>
    match decode (buf.drop position) with
    | .incomplete => some ⟨[], position, true⟩
    | .corrupt => some ⟨[], position, false⟩
    | .frame size content => do
      let rest ← scan decode buf fuel (position + size)
      return { rest with contents := content :: rest.contents }

/-- Every frame has a byte and lies within the buffer. -/
def Advances (decode : List α → Found γ) : Prop :=
  ∀ buf size content, decode buf = .frame size content → 0 < size ∧ size ≤ buf.length

/-- The decoder reads `value m` from the bytes of `m`, whatever follows, and waits for all of them. -/
structure Decodes (decode : List α → Found γ) (bytes : β → List α) (value : β → γ) (Valid : β → Prop) : Prop where
  nothing : decode [] = .incomplete
  nonempty : ∀ m, Valid m → 0 < (bytes m).length
  whole : ∀ m, Valid m → ∀ rest, decode (bytes m ++ rest) = .frame (bytes m).length (value m)
  cut : ∀ m, Valid m → ∀ front, front <+: bytes m → front.length < (bytes m).length → decode front = .incomplete

/-- `pending` begins the messages still to come, and none of them is complete. -/
def Pending (bytes : β → List α) (pending : List α) (todo : List β) : Prop :=
  pending <+: todo.flatMap bytes ∧ ∀ m ∈ todo.head?, pending.length < (bytes m).length

/-- Of the messages of a stream, `taken` have been read from the bytes that arrived, and `pending` is left. -/
def Reading (bytes : β → List α) (messages : List β) (arrived : List α) (taken : List β) (pending : List α) : Prop :=
  ∃ todo, messages = taken ++ todo ∧ arrived = taken.flatMap bytes ++ pending ∧ Pending bytes pending todo

section Stream

variable {decode : List α → Found γ} {bytes : β → List α} {value : β → γ} {Valid : β → Prop}
variable {messages taken : List β} {arrived pending chunk buf : List α} {fuel position : Nat}

theorem reading_start (nonempty : ∀ m ∈ messages, 0 < (bytes m).length) : Reading bytes messages [] [] [] := by
  refine ⟨messages, rfl, rfl, List.nil_prefix, ?_⟩
  intro m first
  exact nonempty m (List.mem_of_mem_head? first)

theorem Decodes.scan (decodes : Decodes decode bytes value Valid) {todo : List β} (valid : ∀ m ∈ todo, Valid m)
    (front : buf.drop position <+: todo.flatMap bytes) (enough : (buf.drop position).length < fuel)
    (inside : position ≤ buf.length) : ∃ done rest position', todo = done ++ rest ∧
    scan decode buf fuel position = some ⟨done.map value, position', true⟩ ∧
      buf.drop position = done.flatMap bytes ++ buf.drop position' ∧ position' ≤ buf.length ∧
      Pending bytes (buf.drop position') rest := by
  induction fuel generalizing position todo with
  | zero => omega
  | succ fuel ih =>
    cases todo with
    | nil =>
      have empty : buf.drop position = [] := prefix_nil.mp front
      refine ⟨[], [], position, rfl, ?_, by rw [empty]; rfl, inside, front, fun _ none => nomatch none⟩
      rw [Deframing.scan, empty, decodes.nothing]
      rfl
    | cons m todo =>
      have ok := valid m mem_cons_self
      by_cases short : (buf.drop position).length < (bytes m).length
      · -- the first message is not complete
        have begins : buf.drop position <+: bytes m :=
          prefix_of_prefix_length_le front (prefix_append _ _) (Nat.le_of_lt short)
        refine ⟨[], m :: todo, position, rfl, ?_, rfl, inside, front, ?_⟩
        · rw [Deframing.scan, decodes.cut m ok _ begins short]
          rfl
        · intro first isFirst
          exact Option.some.inj isFirst ▸ short
      · -- it is taken and the scan goes on after it
        obtain ⟨rest, split⟩ : bytes m <+: buf.drop position :=
          prefix_of_prefix_length_le (prefix_append _ _) front (Nat.le_of_not_lt short)
        have after : buf.drop (position + (bytes m).length) = rest := by
          rw [← drop_drop, ← split, drop_left]
        have length : (buf.drop position).length = (bytes m).length + rest.length := by rw [← split, length_append]
        have positive := decodes.nonempty m ok
        have remain : (buf.drop position).length = buf.length - position := length_drop
        have later : rest <+: todo.flatMap bytes := by
          rw [flatMap_cons, ← split] at front
          exact (prefix_append_right_inj _).mp front
        obtain ⟨done, rest', position', all, scanned, content, inside', open'⟩ :=
          @ih (position + (bytes m).length) todo (fun m' member => valid m' (mem_cons_of_mem m member))
            (by rwa [after]) (by rw [after]; omega) (by omega)
        refine ⟨m :: done, rest', position', by rw [all, cons_append], ?_, ?_, inside', open'⟩
        · rw [Deframing.scan, ← split, decodes.whole m ok rest]
          simp only [scanned]
          rfl
        · rw [flatMap_cons, append_assoc, ← content, after, split]

/-- More bytes arrive behind the pending ones and the buffer is scanned. -/
theorem Reading.scan (reading : Reading bytes messages arrived taken pending)
    (decodes : Decodes decode bytes value Valid)
    (valid : ∀ m ∈ messages, Valid m) (more : arrived ++ chunk <+: messages.flatMap bytes)
    (buffered : buf.drop position = pending ++ chunk) (enough : (buf.drop position).length < fuel)
    (inside : position ≤ buf.length) :
    ∃ done position', scan decode buf fuel position = some ⟨done.map value, position', true⟩ ∧ position' ≤ buf.length ∧
      Reading bytes messages (arrived ++ chunk) (taken ++ done) (buf.drop position') := by
  obtain ⟨todo, rfl, rfl, -⟩ := reading
  have front : buf.drop position <+: todo.flatMap bytes := by
    rw [flatMap_append, append_assoc] at more
    exact buffered ▸ (prefix_append_right_inj _).mp more
  obtain ⟨done, rest, position', all, scanned, content, inside', open'⟩ :=
    decodes.scan (fun m member => valid m (mem_append_right _ member)) front enough inside
  refine ⟨done, position', scanned, inside', rest, ?_, ?_, open'⟩
  · rw [all, append_assoc]
  · rw [append_assoc, ← buffered, content, flatMap_append, append_assoc]

/-- A buffer that can hold every message has room while one is awaited. -/
theorem Reading.room (reading : Reading bytes messages arrived taken pending) {size : Nat} (positive : 0 < size)
    (fits : ∀ m ∈ messages, (bytes m).length ≤ size) : pending.length < size := by
  obtain ⟨todo, rfl, -, front, short⟩ := reading
  cases todo with
  | nil => rwa [prefix_nil.mp front]
  | cons m todo => exact Nat.lt_of_lt_of_le (short m rfl) (fits m (mem_append_right _ mem_cons_self))

/-- When the whole stream has arrived, all its messages have been taken. -/
theorem Reading.complete (reading : Reading bytes messages (messages.flatMap bytes) taken pending) :
    taken = messages := by
  obtain ⟨todo, rfl, all, -, short⟩ := reading
  rw [flatMap_append] at all
  have left : todo.flatMap bytes = pending := append_cancel_left all
  cases todo with
  | nil => rw [append_nil]
  | cons m todo =>
    have waits := short m rfl
    rw [← left, flatMap_cons, length_append] at waits
    omega

end Stream

end Deframing
