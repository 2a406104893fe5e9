import Mathlib.Data.List.Basic

/-!
# Frames of a delimited stream

A stream over an alphabet with one delimiter falls into frames, the maximal delimiter-free
blocks that a delimiter ends. The frames are computed in one pass, and characterised by where
they stand: the first one begins the stream, every later one follows a delimiter.
-/

namespace Delimited

variable {α : Type}

/-- The stream begins with this frame. -/
def First (d : α) (stream frame : List α) : Prop :=
  d ∉ frame ∧ ∃ after, stream = frame ++ d :: after

/-- This frame stands between two delimiters of the stream. -/
def Later (d : α) (stream frame : List α) : Prop :=
  d ∉ frame ∧ ∃ before after, stream = before ++ d :: (frame ++ d :: after)

variable {d : α} {seen body body' rest rest' stream frame : List α}

/-- A delimited stream splits at its last delimiter. -/
theorem split_last (found : d ∈ stream) :
    ∃ front back, stream = front ++ d :: back ∧ d ∉ back := by
  obtain ⟨back, front, shape, clean⟩ := List.eq_append_cons_of_mem (List.mem_reverse.mpr found)
  refine ⟨front.reverse, back.reverse, ?_, by simpa using clean⟩
  rw [← List.reverse_reverse stream, shape]
  simp

/-- A stream splits at its first delimiter in one way only. -/
theorem split_unique (clean : d ∉ body) (clean' : d ∉ body')
    (same : body ++ d :: rest = body' ++ d :: rest') : body = body' ∧ rest = rest' := by
  induction body generalizing body' with
  | nil =>
    cases body' with
    | nil => exact ⟨rfl, (List.cons.inj same).2⟩
    | cons x more =>
      rw [List.mem_cons, not_or] at clean'
      exact absurd (List.cons.inj same).1 clean'.1
  | cons x more ih =>
    rw [List.mem_cons, not_or] at clean
    cases body' with
    | nil => exact absurd (List.cons.inj same).1.symm clean.1
    | cons y more' =>
      rw [List.mem_cons, not_or] at clean'
      obtain ⟨rfl, tails⟩ := List.cons.inj same
      obtain ⟨rfl, equal⟩ := ih clean.2 clean'.2 tails
      exact ⟨rfl, equal⟩

/-- A delimiter-free beginning of a stream lies in front of its first delimiter. -/
theorem split_behind {front back : List α} (clean : d ∉ front)
    (same : front ++ back = body ++ d :: rest) :
    ∃ more, body = front ++ more ∧ back = more ++ d :: rest := by
  obtain ⟨more, shape, behind⟩ | ⟨more, shape, behind⟩ := List.append_eq_append_iff.mp same
  · exact ⟨more, shape, behind⟩
  · cases more with
    | nil => exact ⟨[], by simpa using shape.symm, by simpa using behind.symm⟩
    | cons x others =>
      obtain ⟨rfl, -⟩ := List.cons.inj behind
      simp [shape] at clean

/-- The frame after some delimited part of the stream is a later frame. -/
theorem Later.of_first (first : First d rest frame) : Later d (body ++ d :: rest) frame := by
  obtain ⟨clean, after, rfl⟩ := first
  exact ⟨clean, body, after, rfl⟩

/-- A later frame of the end of a stream is one of the stream. -/
theorem Later.prepend (later : Later d rest frame) : Later d (body ++ rest) frame := by
  obtain ⟨clean, before, after, rfl⟩ := later
  exact ⟨clean, body ++ before, after, by simp⟩

/-- A later frame lies behind the first delimiter, right there or later on. -/
theorem Later.behind (clean : d ∉ body) (later : Later d (body ++ d :: rest) frame) :
    First d rest frame ∨ Later d rest frame := by
  obtain ⟨free, before, after, shape⟩ := later
  by_cases inside : d ∈ before
  · obtain ⟨front, back, rfl, clear⟩ := List.eq_append_cons_of_mem inside
    obtain ⟨-, behind⟩ := split_unique clean clear (by simpa using shape)
    exact .inr ⟨free, back, after, by simpa using behind⟩
  · obtain ⟨-, behind⟩ := split_unique clean inside shape
    exact .inl ⟨free, after, behind⟩

/-! ## One frame over and over -/

/-- The frame and its delimiter, so many times. -/
def train (d : α) (frame : List α) : Nat → List α
  | 0 => []
  | k + 1 => frame ++ d :: train d frame k

/-- A train has one delimiter for each frame. -/
theorem count_train [DecidableEq α] (whole : d ∉ frame) (k : Nat) :
    (train d frame k).count d = k := by
  induction k with
  | zero => rfl
  | succ k ih =>
    rw [train, List.count_append, List.count_cons_self, ih, List.count_eq_zero_of_not_mem whole]
    omega

/-- One more frame at the end is one more frame. -/
theorem train_concat (k : Nat) : train d frame k ++ (frame ++ [d]) = train d frame (k + 1) := by
  induction k with
  | zero => simp [train]
  | succ k ih =>
    rw [train, List.append_assoc, List.cons_append, ih]
    rfl

/-- Behind any number of frames and the beginning of another, a delimiter is preceded by the end
of a frame and followed by more of the same. -/
theorem split_train {k : Nat} {front before block after : List α} (whole : d ∉ frame)
    (cut : d ∉ front) (clean : d ∉ block)
    (shape : train d frame k ++ front = before ++ block ++ d :: after) :
    block <:+ frame ∧ ∃ j, after = train d frame j ++ front := by
  induction k generalizing before with
  | zero =>
    have inside : d ∈ front := by
      rw [show front = before ++ block ++ d :: after from shape]
      simp
    exact absurd inside cut
  | succ k ih =>
    rw [train, List.append_assoc, List.cons_append] at shape
    by_cases passed : d ∈ before
    · -- the delimiter lies behind the first frame
      obtain ⟨first, rest, rfl, free⟩ := List.eq_append_cons_of_mem passed
      rw [List.append_assoc, List.append_assoc, List.cons_append] at shape
      have later : train d frame k ++ front = rest ++ block ++ d :: after := by
        rw [(split_unique whole free shape).2, List.append_assoc]
      exact ih later
    · have free : d ∉ before ++ block := by
        rw [List.mem_append, not_or]
        exact ⟨passed, clean⟩
      obtain ⟨same, behind⟩ := split_unique whole free shape
      exact ⟨⟨before, same.symm⟩, k, behind.symm⟩

/-! ## Computing the frames -/

section Frames

variable [DecidableEq α]

/-- The frames of a stream behind the part of a frame already seen. -/
def frames (d : α) (seen : List α) : List α → List (List α)
  | [] => []
  | x :: rest => if x = d then seen :: frames d [] rest else frames d (seen ++ [x]) rest

/-- A stream without delimiter has no frame. -/
theorem frames_clean (clean : d ∉ body) : frames d seen body = [] := by
  induction body generalizing seen with
  | nil => rfl
  | cons x rest ih =>
    rw [List.mem_cons, not_or] at clean
    rw [frames, if_neg (Ne.symm clean.1)]
    exact ih clean.2

/-- The first delimiter ends the first frame. -/
theorem frames_delimited (clean : d ∉ body) :
    frames d seen (body ++ d :: rest) = (seen ++ body) :: frames d [] rest := by
  induction body generalizing seen with
  | nil => simp [frames]
  | cons x more ih =>
    rw [List.mem_cons, not_or] at clean
    rw [List.cons_append, frames, if_neg (Ne.symm clean.1), ih clean.2, List.append_assoc]
    rfl

/-- The frames of a stream, by where they stand. -/
theorem mem_frames : frame ∈ frames d [] stream ↔ First d stream frame ∨ Later d stream frame := by
  induction measured : stream.length using Nat.strongRecOn generalizing stream with
  | ind size ih =>
    by_cases delimited : d ∈ stream
    · obtain ⟨body, rest, rfl, clean⟩ := List.eq_append_cons_of_mem delimited
      have shorter : rest.length < size := by
        rw [← measured, List.length_append, List.length_cons]
        omega
      rw [frames_delimited clean, List.nil_append, List.mem_cons, ih _ shorter rfl]
      constructor
      · rintro (rfl | first | later)
        · exact .inl ⟨clean, rest, rfl⟩
        · exact .inr (.of_first first)
        · have further : Later d ((body ++ [d]) ++ rest) frame := later.prepend
          exact .inr (by simpa using further)
      · rintro (⟨free, after, shape⟩ | later)
        · exact .inl (split_unique free clean shape.symm).1
        · exact .inr (later.behind clean)
    · rw [frames_clean delimited]
      constructor
      · intro impossible
        contradiction
      · rintro (⟨-, after, rfl⟩ | ⟨-, before, after, rfl⟩) <;> simp at delimited

/-- The frames behind the first are the later ones. -/
theorem mem_frames_tail : frame ∈ (frames d [] stream).tail ↔ Later d stream frame := by
  by_cases delimited : d ∈ stream
  · obtain ⟨body, rest, rfl, clean⟩ := List.eq_append_cons_of_mem delimited
    rw [frames_delimited clean, List.tail_cons, mem_frames]
    constructor
    · rintro (first | later)
      · exact .of_first first
      · have further : Later d ((body ++ [d]) ++ rest) frame := later.prepend
        simpa using further
    · exact Later.behind clean
  · rw [frames_clean delimited]
    constructor
    · intro impossible
      contradiction
    · rintro ⟨-, before, after, rfl⟩
      simp at delimited

end Frames

end Delimited
