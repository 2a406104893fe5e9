import Mathlib.Data.List.Basic

/-!
# Consistent overhead byte stuffing

The format writes a payload as blocks. A block is a code byte, one more than the number of
its data bytes, followed by those bytes, none of them zero. A zero of the payload ends a block
and is not written; a block of `blockLimit` data bytes ends by itself, and its code is the only
one that implies no zero. Both directions are given on lists alone, as the meaning an
implementation with indices and buffers is compared with.
-/

namespace Stuffing

/-- Largest number of data bytes in one block. -/
def blockLimit : Nat := 254

/-- The code byte in front of a block's data. -/
def code (block : List UInt8) : UInt8 := UInt8.ofNat (block.length + 1)

/-- Encode the rest of a payload, with the data of the open block so far. -/
def stuff (block : List UInt8) : List UInt8 → List UInt8
  | [] => code block :: block
  | byte :: rest =>
    if byte = 0 then code block :: (block ++ stuff [] rest)
    else if block.length + 1 = blockLimit then
      code (block ++ [byte]) :: (block ++ [byte] ++ stuff [] rest)
    else stuff (block ++ [byte]) rest

/-- Decode a sequence of blocks; a zero code and a block cut short are refused. -/
def unstuff : List UInt8 → Option (List UInt8)
  | [] => some []
  | first :: rest =>
    if first = 0 then none
    else if rest.length < first.toNat - 1 then none
    else
      (unstuff (rest.drop (first.toNat - 1))).map fun payload =>
        rest.take (first.toNat - 1) ++
          if first ≠ 0xFF ∧ rest.drop (first.toNat - 1) ≠ [] then 0 :: payload else payload
  termination_by bytes => bytes.length
  decreasing_by
    rw [List.length_drop, List.length_cons]
    omega

variable {block tail rest : List UInt8}

/-- A code byte counts its block and one more. -/
theorem code_toNat (short : block.length ≤ blockLimit) :
    (code block).toNat = block.length + 1 := by
  unfold blockLimit at short
  simp only [code, UInt8.toNat_ofNat']
  omega

/-- One more data byte counts one more. -/
theorem code_concat (block : List UInt8) (byte : UInt8) :
    code (block ++ [byte]) = code block + 1 := by
  have grown : (block ++ [byte]).length = block.length + 1 := by simp
  simp only [code, grown, UInt8.ofNat_add]
  rfl

/-- No block has the code zero. -/
theorem code_ne_zero (short : block.length ≤ blockLimit) : code block ≠ 0 := by
  intro zero
  have count := code_toNat short
  rw [zero] at count
  simp at count

/-- Only a full block has the code `0xFF`. -/
theorem code_eq_full (short : block.length ≤ blockLimit) :
    code block = 0xFF ↔ block.length = blockLimit := by
  rw [← UInt8.toNat_inj, code_toNat short]
  show block.length + 1 = 255 ↔ block.length = 254
  omega

/-- An encoding is never empty. -/
theorem stuff_ne_nil (block payload : List UInt8) : stuff block payload ≠ [] := by
  induction payload generalizing block with
  | nil => simp [stuff]
  | cons byte rest ih =>
    unfold stuff
    split
    · simp
    · split
      · simp
      · exact ih _

/-- Decoding one block in front of further blocks. -/
theorem unstuff_block (tail : List UInt8) (short : block.length ≤ blockLimit) :
    unstuff (code block :: (block ++ tail)) = (unstuff tail).map fun payload =>
      block ++ if block.length ≠ blockLimit ∧ tail ≠ [] then 0 :: payload else payload := by
  have count := code_toNat short
  rw [unstuff, if_neg (code_ne_zero short)]
  simp only [count, Nat.add_sub_cancel, List.length_append, List.drop_left, List.take_left,
    ne_eq, code_eq_full short]
  rw [if_neg (by omega)]

/-- Decoding gives back the open block and the rest of the payload. -/
theorem unstuff_stuff (short : block.length < blockLimit) :
    unstuff (stuff block rest) = some (block ++ rest) := by
  induction rest generalizing block with
  | nil =>
    have alone := unstuff_block [] (Nat.le_of_lt short)
    simpa [stuff, unstuff] using alone
  | cons byte rest ih =>
    have empty : ([] : List UInt8).length < blockLimit := by decide
    unfold stuff
    split
    · rename_i zero
      rw [unstuff_block _ (Nat.le_of_lt short), ih empty]
      simp [Nat.ne_of_lt short, stuff_ne_nil, zero]
    · split
      · rename_i full
        have filled : (block ++ [byte]).length = blockLimit := by simpa using full
        rw [unstuff_block _ (Nat.le_of_eq filled), ih empty]
        simp [filled]
      · rename_i room
        rw [ih (by rw [List.length_append, List.length_singleton]; omega)]
        simp

/-- An encoding of nonzero block data holds no zero. -/
theorem stuff_nonzero (block rest : List UInt8) (short : block.length < blockLimit)
    (clean : ∀ byte ∈ block, byte ≠ 0) :
    ∀ byte ∈ stuff block rest, byte ≠ 0 := by
  induction rest generalizing block with
  | nil =>
    intro byte member
    rcases List.mem_cons.mp member with rfl | inside
    · exact code_ne_zero (Nat.le_of_lt short)
    · exact clean byte inside
  | cons next rest ih =>
    have later := ih [] (by decide) (by simp)
    unfold stuff
    split
    · intro byte member
      rcases List.mem_cons.mp member with rfl | inside
      · exact code_ne_zero (Nat.le_of_lt short)
      · rcases List.mem_append.mp inside with inside | inside
        · exact clean byte inside
        · exact later byte inside
    · rename_i nonzero
      have extended : ∀ byte ∈ block ++ [next], byte ≠ 0 := by
        intro byte member
        rcases List.mem_append.mp member with inside | last
        · exact clean byte inside
        · rw [List.mem_singleton.mp last]
          exact nonzero
      split
      · rename_i full
        intro byte member
        rcases List.mem_cons.mp member with rfl | inside
        · exact code_ne_zero (Nat.le_of_eq (by simpa using full))
        · rcases List.mem_append.mp inside with inside | inside
          · exact extended byte inside
          · exact later byte inside
      · exact ih _ (by rw [List.length_append, List.length_singleton]; omega) extended

/-- An encoding is longer than its payload, by at most one code byte and one for each full
block. -/
theorem stuff_length (block rest : List UInt8) (short : block.length < blockLimit) :
    block.length + rest.length + 1 ≤ (stuff block rest).length ∧
      (stuff block rest).length ≤
        block.length + rest.length + (block.length + rest.length) / blockLimit + 1 := by
  induction rest generalizing block with
  | nil => simp [stuff]
  | cons byte rest ih =>
    have later := ih [] (by decide)
    simp only [List.length_nil, Nat.zero_add, blockLimit] at later
    unfold blockLimit at short
    unfold stuff
    split
    · simp only [List.length_cons, List.length_append, blockLimit]
      omega
    · split
      · rename_i full
        simp only [blockLimit] at full
        simp only [List.length_cons, List.length_append, List.length_nil, blockLimit]
        omega
      · rename_i room
        simp only [blockLimit] at room
        have onward := ih (block ++ [byte])
          (by rw [List.length_append, List.length_singleton]; unfold blockLimit; omega)
        simp only [List.length_append, List.length_nil, List.length_cons, blockLimit] at onward ⊢
        omega

/-- A zero-free beginning of the payload that fits one block stands unchanged behind the first
code byte. -/
theorem unstuff_front {first : UInt8} {front payload : List UInt8} (clean : (0 : UInt8) ∉ front)
    (short : front.length ≤ blockLimit) (decoded : unstuff (first :: rest) = some payload)
    (begins : front <+: payload) : front <+: rest := by
  rw [unstuff] at decoded
  split at decoded
  · contradiction
  split at decoded
  · contradiction
  rename_i long
  obtain ⟨inner, more, rfl⟩ := Option.map_eq_some_iff.mp decoded
  have size : (rest.take (first.toNat - 1)).length = first.toNat - 1 := by
    rw [List.length_take]
    omega
  by_cases inside : front.length ≤ first.toNat - 1
  · have within : front <+: rest.take (first.toNat - 1) :=
      List.prefix_of_prefix_length_le begins (List.prefix_append _ _) (by omega)
    exact within.trans (List.take_prefix _ _)
  · exfalso
    -- behind a short block the payload ends or goes on with a zero
    have unfilled : first ≠ 0xFF := by
      rintro rfl
      exact inside short
    by_cases last : rest.drop (first.toNat - 1) = []
    · rw [last, unstuff] at more
      obtain rfl := Option.some.inj more
      have bound := begins.length_le
      simp only [last, ne_eq, not_true_eq_false, and_false, if_false, List.append_nil] at bound
      omega
    · simp only [ne_eq, unfilled, not_false_eq_true, last, and_self, if_true] at begins
      have zero : rest.take (first.toNat - 1) ++ [0] <+: front := by
        refine List.prefix_of_prefix_length_le ?_ begins ?_
        · exact ⟨inner, by simp⟩
        · rw [List.length_append, List.length_singleton]
          omega
      exact clean (zero.subset (by simp))

/-! ## The room an encoding takes

Beside one byte for each payload byte, an encoding takes one for its first code and one for each
block that runs of nonzero bytes fill. -/

/-- The data of the block that is open when the payload ends. -/
def lastBlock (block : List UInt8) : List UInt8 → List UInt8
  | [] => block
  | byte :: rest =>
    if byte = 0 then lastBlock [] rest
    else if block.length + 1 = blockLimit then lastBlock [] rest
    else lastBlock (block ++ [byte]) rest

/-- How many blocks the runs of nonzero bytes between zeros fill. -/
def fullBlocks (payload : List UInt8) : Nat :=
  (payload.splitOn 0).foldr (fun run count => run.length / blockLimit + count) 0

/-- The nonzero bytes behind the last zero. -/
def lastRun (payload : List UInt8) : List UInt8 := (payload.splitOn 0).getLastD []

/-- Nonzero bytes in front belong to the first run. -/
theorem splitOn_clean {front : List UInt8} (clean : (0 : UInt8) ∉ front) (rest : List UInt8) :
    ∃ first others, rest.splitOn 0 = first :: others ∧
      (front ++ rest).splitOn 0 = (front ++ first) :: others := by
  induction front with
  | nil =>
    obtain ⟨first, others, split⟩ :=
      List.exists_cons_of_ne_nil (List.splitOnP_ne_nil (fun byte => byte == 0) rest)
    exact ⟨first, others, split, split⟩
  | cons byte front ih =>
    rw [List.mem_cons, not_or] at clean
    obtain ⟨first, others, split, longer⟩ := ih clean.2
    refine ⟨first, others, split, ?_⟩
    have nonzero : (byte == 0) = false := by simpa using Ne.symm clean.1
    rw [List.splitOn] at longer ⊢
    rw [List.cons_append, List.splitOnP_cons_eq_if_modifyHead, longer]
    simp [nonzero]

/-- A zero ends the run in front of it. -/
theorem splitOn_zero {front : List UInt8} (clean : (0 : UInt8) ∉ front) (rest : List UInt8) :
    (front ++ 0 :: rest).splitOn 0 = front :: rest.splitOn 0 := by
  have alone : front.splitOn 0 = [front] := List.splitOn_eq_singleton clean
  rw [List.splitOn] at alone ⊢
  rw [List.splitOnP_append_cons _ _ (by simp), alone]
  rfl

/-- How long an encoding is. -/
theorem stuff_length_eq (block rest : List UInt8) (short : block.length < blockLimit)
    (clean : (0 : UInt8) ∉ block) :
    (stuff block rest).length = block.length + rest.length + 1 + fullBlocks (block ++ rest) := by
  induction rest generalizing block with
  | nil =>
    have alone : block.splitOn 0 = [block] := List.splitOn_eq_singleton clean
    have unfilled : block.length / blockLimit = 0 := Nat.div_eq_of_lt short
    simp [stuff, fullBlocks, alone, unfilled]
  | cons byte rest ih =>
    have later := ih [] (by decide) (by simp)
    simp only [List.length_nil, Nat.zero_add, List.nil_append] at later
    unfold stuff
    split
    · rename_i zero
      subst zero
      have unfilled : block.length / blockLimit = 0 := Nat.div_eq_of_lt short
      have count : fullBlocks (block ++ 0 :: rest) = fullBlocks rest := by
        simp [fullBlocks, splitOn_zero clean, unfilled]
      simp only [List.length_cons, List.length_append, later, count]
      omega
    · rename_i nonzero
      have extended : (0 : UInt8) ∉ block ++ [byte] := by simp [clean, Ne.symm nonzero]
      have joins : block ++ byte :: rest = (block ++ [byte]) ++ rest := by simp
      split
      · rename_i full
        have count : fullBlocks (block ++ byte :: rest) = fullBlocks rest + 1 := by
          obtain ⟨first, others, split, longer⟩ := splitOn_clean extended rest
          have more : (block.length + (first.length + 1)) / blockLimit =
              first.length / blockLimit + 1 := by
            rw [← Nat.add_div_right _ (by decide), ← full]
            congr 1
            omega
          rw [joins]
          simp only [fullBlocks, split, longer, List.foldr_cons, List.length_append,
            List.length_singleton, Nat.add_assoc, Nat.add_comm 1, more]
        simp only [List.length_cons, List.length_append, List.length_nil, later, count]
        omega
      · rw [ih (block ++ [byte]) (by rw [List.length_append, List.length_singleton]; omega)
          extended, joins]
        simp only [List.length_append, List.length_cons, List.length_nil]
        omega

/-- The block left open holds what the last run leaves over from full blocks. -/
theorem lastBlock_length (block rest : List UInt8) (short : block.length < blockLimit)
    (clean : (0 : UInt8) ∉ block) :
    (lastBlock block rest).length = (lastRun (block ++ rest)).length % blockLimit := by
  induction rest generalizing block with
  | nil =>
    have alone : block.splitOn 0 = [block] := List.splitOn_eq_singleton clean
    simp [lastBlock, lastRun, alone, Nat.mod_eq_of_lt short]
  | cons byte rest ih =>
    have later := ih [] (by decide) (by simp)
    rw [List.nil_append] at later
    unfold lastBlock
    split
    · rename_i zero
      subst zero
      obtain ⟨first, others, split⟩ :=
        List.exists_cons_of_ne_nil (List.splitOnP_ne_nil (fun byte => byte == 0) rest)
      have same : lastRun (block ++ 0 :: rest) = lastRun rest := by
        have front : rest.splitOn 0 = first :: others := split
        rw [lastRun, lastRun, splitOn_zero clean, front]
        rfl
      rw [later, same]
    · rename_i nonzero
      have extended : (0 : UInt8) ∉ block ++ [byte] := by simp [clean, Ne.symm nonzero]
      have joins : block ++ byte :: rest = (block ++ [byte]) ++ rest := by simp
      rw [joins]
      split
      · rename_i full
        have grown : (block ++ [byte]).length = blockLimit := by simpa using full
        obtain ⟨first, others, split, longer⟩ := splitOn_clean extended rest
        rw [later, lastRun, lastRun, split, longer]
        cases others with
        | nil =>
          show first.length % blockLimit = (block ++ [byte] ++ first).length % blockLimit
          rw [List.length_append, grown, Nat.add_mod_left]
        | cons next others => rfl
      · exact ih (block ++ [byte]) (by rw [List.length_append, List.length_singleton]; omega)
          extended

/-! ## Frames as blocks

A frame that decodes is a sequence of whole blocks. Each payload has one sequence of zero-free
blocks, but for an empty block that may be written or left out behind a full block at the end. -/

/-- Blocks one after the other, each behind its code byte. -/
def joined (blocks : List (List UInt8)) : List UInt8 :=
  blocks.flatMap fun block => code block :: block

/-- What a sequence of blocks stands for: a zero between two blocks, none behind a full one. -/
def meaning : List (List UInt8) → List UInt8
  | [] => []
  | block :: rest =>
    block ++ if block.length ≠ blockLimit ∧ rest ≠ [] then 0 :: meaning rest else meaning rest

/-- The frame is exactly these blocks, none of them cut short. -/
structure Whole (blocks : List (List UInt8)) (frame : List UInt8) : Prop where
  /-- The blocks stand one after the other. -/
  shape : frame = joined blocks
  /-- A code byte can count every block. -/
  short : ∀ block ∈ blocks, block.length ≤ blockLimit

/-- No block at all, or a full one at the end: an empty block may follow unnoticed. -/
def endsFull (blocks : List (List UInt8)) : Bool :=
  match blocks.getLast? with
  | none => true
  | some last => last.length = blockLimit

variable {blocks : List (List UInt8)} {frame payload : List UInt8}

/-- Only no blocks make the empty frame. -/
theorem joined_eq_nil : joined blocks = [] ↔ blocks = [] := by
  cases blocks <;> simp [joined]

/-- Blocks end full exactly if there is none or the last code is `0xFF`. -/
theorem endsFull_iff (short : ∀ block ∈ blocks, block.length ≤ blockLimit) :
    endsFull blocks = true ↔ blocks = [] ∨ blocks.getLast?.map code = some 0xFF := by
  cases last : blocks.getLast? with
  | none => simp [endsFull, List.getLast?_eq_none_iff.mp last]
  | some block =>
    have bound := short block (List.mem_of_getLast? last)
    have nonempty : blocks ≠ [] := by
      rintro rfl
      contradiction
    simp [endsFull, last, nonempty, code_eq_full bound]

/-- A sequence of whole blocks decodes to what it stands for. -/
theorem unstuff_joined (short : ∀ block ∈ blocks, block.length ≤ blockLimit) :
    unstuff (joined blocks) = some (meaning blocks) := by
  induction blocks with
  | nil => simp [joined, meaning, unstuff]
  | cons block rest ih =>
    have first : block.length ≤ blockLimit := short block (by simp)
    have later := ih fun other member => short other (by simp [member])
    have split : joined (block :: rest) = code block :: (block ++ joined rest) := by
      simp [joined]
    rw [split, unstuff_block _ first, later]
    simp only [Option.map_some, meaning, ne_eq, joined_eq_nil]

/-- A frame that decodes is a sequence of whole blocks. -/
theorem whole_of_unstuff (decoded : unstuff frame = some payload) :
    ∃ blocks, Whole blocks frame := by
  -- the induction follows the decoder from block to block
  induction frame using unstuff.induct generalizing payload with
  | case1 => exact ⟨[], rfl, by simp⟩
  | case2 rest => simp [unstuff] at decoded
  | case3 first rest nonzero cut => simp [unstuff, nonzero, cut] at decoded
  | case4 first rest nonzero long ih =>
    rw [unstuff, if_neg nonzero, if_neg long] at decoded
    obtain ⟨inner, more, -⟩ := Option.map_eq_some_iff.mp decoded
    obtain ⟨blocks, shape, short⟩ := ih more
    have size : (rest.take (first.toNat - 1)).length = first.toNat - 1 := by
      rw [List.length_take]
      omega
    have bound : first.toNat - 1 ≤ blockLimit := by
      have below := first.toNat_lt
      unfold blockLimit
      omega
    have counted : code (rest.take (first.toNat - 1)) = first := by
      have positive : first.toNat ≠ 0 := fun zero => nonzero (UInt8.toNat_inj.mp zero)
      apply UInt8.toNat_inj.mp
      rw [code_toNat (by omega), size]
      omega
    refine ⟨rest.take (first.toNat - 1) :: blocks, ?_, ?_⟩
    · have whole := List.take_append_drop (first.toNat - 1) rest
      rw [shape] at whole
      simpa [joined, counted] using whole.symm
    · intro block member
      rcases List.mem_cons.mp member with rfl | later
      · omega
      · exact short block later

/-- Exactly the sequences of whole blocks decode. -/
theorem unstuff_isSome : (unstuff frame).isSome = true ↔ ∃ blocks, Whole blocks frame := by
  constructor
  · intro decodes
    obtain ⟨payload, decoded⟩ := Option.isSome_iff_exists.mp decodes
    exact whole_of_unstuff decoded
  · rintro ⟨blocks, rfl, short⟩
    rw [unstuff_joined short]
    rfl

/-- Nonzero bytes that leave the block open only lengthen it. -/
theorem stuff_open (block more rest : List UInt8) (clean : (0 : UInt8) ∉ more)
    (room : block.length + more.length < blockLimit) :
    stuff block (more ++ rest) = stuff (block ++ more) rest := by
  induction more generalizing block with
  | nil => simp
  | cons byte more ih =>
    rw [List.mem_cons, not_or] at clean
    rw [List.length_cons] at room
    have onward := ih (block ++ [byte]) clean.2
      (by rw [List.length_append, List.length_singleton]; omega)
    rw [List.cons_append, stuff, if_neg (Ne.symm clean.1), if_neg (by omega), onward]
    simp

/-- Nonzero bytes that fill the block close it. -/
theorem stuff_full (rest : List UInt8) (clean : (0 : UInt8) ∉ block)
    (full : block.length = blockLimit) :
    stuff [] (block ++ rest) = code block :: (block ++ stuff [] rest) := by
  obtain rfl | ⟨front, last, rfl⟩ := block.eq_nil_or_concat'
  · contradiction
  · rw [List.length_append, List.length_singleton] at full
    rw [List.mem_append, List.mem_singleton, not_or] at clean
    have opened := stuff_open [] front (last :: rest) clean.1
      (by rw [List.length_nil]; omega)
    rw [List.append_assoc, List.singleton_append, opened, List.nil_append, stuff,
      if_neg (Ne.symm clean.2), if_pos full]

/-- Encoding what zero-free blocks stand for gives the blocks again, and the empty block that
the end may have left out. -/
theorem stuff_meaning (short : ∀ block ∈ blocks, block.length ≤ blockLimit)
    (clean : ∀ block ∈ blocks, (0 : UInt8) ∉ block) :
    stuff [] (meaning blocks) = joined blocks ++ if endsFull blocks then [1] else [] := by
  induction blocks with
  | nil => rfl
  | cons block rest ih =>
    have bound := short block (by simp)
    have data := clean block (by simp)
    have later := ih (fun other member => short other (by simp [member]))
      fun other member => clean other (by simp [member])
    have split : joined (block :: rest) = code block :: (block ++ joined rest) := by
      simp [joined]
    by_cases full : block.length = blockLimit
    · have ends : endsFull (block :: rest) = endsFull rest := by
        cases rest <;> simp [endsFull, full]
      rw [split, meaning, if_neg (by simp [full]), stuff_full _ data full, later]
      simp [ends]
    · have room : ([] : List UInt8).length + block.length < blockLimit := by
        rw [List.length_nil]
        omega
      cases rest with
      | nil =>
        have alone := stuff_open [] block [] data room
        simpa [meaning, joined, endsFull, full, stuff] using alone
      | cons next rest =>
        have ends : endsFull (block :: next :: rest) = endsFull (next :: rest) := by
          simp [endsFull]
        rw [split, meaning, if_pos ⟨full, by simp⟩, stuff_open [] block _ data room,
          List.nil_append, stuff, if_pos rfl, later]
        simp [ends]

/-- Encoding undoes decoding on zero-free frames, up to the empty block at the end. -/
theorem stuff_unstuff (whole : Whole blocks frame) (clean : (0 : UInt8) ∉ frame)
    (decoded : unstuff frame = some payload) :
    stuff [] payload = frame ++ if endsFull blocks then [1] else [] := by
  obtain ⟨rfl, short⟩ := whole
  rw [unstuff_joined short] at decoded
  obtain rfl := Option.some.inj decoded
  apply stuff_meaning short
  intro block member inside
  apply clean
  exact List.mem_flatMap.mpr ⟨block, member, List.mem_cons_of_mem _ inside⟩

end Stuffing
