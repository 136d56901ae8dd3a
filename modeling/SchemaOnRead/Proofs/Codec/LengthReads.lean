import SchemaOnRead.Proofs.Codec.WholeFrames

/-!
# The loops over framed streams

A framed stream is read in turns. Each turn reads one length, and then the loop ends, fails, or goes on,
perhaps with a chunk. Neither the declared lengths nor the contents of the chunks bound the number of turns:
a block may declare any size, and a chunk may hold nothing. A turn that goes on takes the four bytes of its
length, though, so that every run comes to its end, after one turn for every four bytes and one more at
most (`loops_stop`).
-/

namespace SchemaOnRead.Snappy

/-! ## Runs of a loop -/

/-- What a turn leaves that goes on: what it read of the contents, no chunk or one, and where the next turn
starts. -/
structure Turn (σ : Type) where
  chunks : List (List UInt8)
  next : σ

section

variable {σ : Type} {turn : σ → Result (Option (Turn σ))} {s : σ} {frames : Frames}

/-- The runs of a loop from a state to the end of the loop, each turn of which reads one length, and what
they give. -/
inductive Runs (turn : σ → Result (Option (Turn σ))) : σ → Frames → Prop
  | ends {s : σ} : turn s = .ok none → Runs turn s ⟨[], 1, none⟩
  | fails {s : σ} {f : Failure} : turn s = .error f → Runs turn s ⟨[], 1, some f⟩
  | goesOn {s next : σ} {chunks : List (List UInt8)} {frames : Frames} :
      turn s = .ok (some ⟨chunks, next⟩) → Runs turn next frames →
      Runs turn s ⟨chunks ++ frames.chunks, frames.lengthReads + 1, frames.failure⟩

/-- A loop has one run from a state at most. -/
theorem Runs.unique {frames' : Frames} (run : Runs turn s frames) (run' : Runs turn s frames') :
    frames = frames' := by
  induction run generalizing frames' with
  | ends step =>
    cases run' with
    | ends _ => rfl
    | fails step' => cases step.symm.trans step'
    | goesOn step' _ => cases step.symm.trans step'
  | fails step =>
    cases run' with
    | ends step' => cases step.symm.trans step'
    | fails step' => cases step.symm.trans step'; rfl
    | goesOn step' _ => cases step.symm.trans step'
  | goesOn step _ ih =>
    cases run' with
    | ends step' => cases step.symm.trans step'
    | fails step' => cases step.symm.trans step'
    | goesOn step' later => cases step.symm.trans step'; rw [ih later]

variable {unread : σ → Nat}
  (takes : ∀ s chunks next, turn s = .ok (some ⟨chunks, next⟩) → unread next + 4 ≤ unread s)

include takes

/-- A loop whose turns take four bytes when they go on reads one length for every four bytes that are left, and
one more, at most. -/
theorem Runs.lengthReads_le (run : Runs turn s frames) : 4 * frames.lengthReads ≤ unread s + 4 := by
  induction run with
  | ends _ => exact Nat.le_add_left 4 _
  | fails _ => exact Nat.le_add_left 4 _
  | goesOn step _ ih =>
    have shrinks := takes _ _ _ step
    simp only
    omega

end

/-! ## The two loops -/

/-- Reads a length and leaves the bytes after it; there is none at the end of the bytes. -/
def readLength : List UInt8 → Result (Option (Int × List UInt8))
  | [] => .ok none
  | a :: b :: c :: d :: rest => .ok (some (signed a b c d, rest))
  | _ => fail .snappyLengthCutOff

theorem length_of_readLength {bs rest : List UInt8} {length : Int}
    (read : readLength bs = .ok (some (length, rest))) : rest.length + 4 = bs.length := by
  rw [readLength.eq_def] at read
  split at read
  · cases read
  · cases read
    rfl
  · cases read

variable (decode : List UInt8 → Option (List UInt8))

/-- A turn of the loop over the chunks of a Xerial stream. -/
def xerialTurn (bs : List UInt8) : Result (Option (Turn (List UInt8))) := do
  match ← readLength bs with
  | none => return none
  | some (length, rest) =>
    let contents ← chunk decode length rest
    return some ⟨[contents], rest.drop length.toNat⟩

/-- Where the loop over a Hadoop stream is when it reads a length: the bytes to come, and the block that is
being read. -/
structure BlockState where
  unread : List UInt8
  block : OpenBlock

/-- A turn of the loop over the blocks of a Hadoop stream: the length is that of a chunk while the block is
short, and otherwise that of the next block. -/
def hadoopTurn (s : BlockState) : Result (Option (Turn BlockState)) := do
  match ← readLength s.unread with
  | none =>
    if s.block.isShort then fail (.hadoopBlockCutOff s.block.size s.block.produced) else return none
  | some (length, rest) =>
    if s.block.isShort then
      let contents ← chunk decode length rest
      return some ⟨[contents],
        ⟨rest.drop length.toNat, { s.block with produced := s.block.produced + contents.length }⟩⟩
    else return some ⟨[], ⟨rest, { size := length }⟩⟩

variable {decode}

theorem xerialTurn_takes (bs : List UInt8) (chunks : List (List UInt8)) (next : List UInt8)
    (step : xerialTurn decode bs = .ok (some ⟨chunks, next⟩)) : next.length + 4 ≤ bs.length := by
  obtain ⟨read?, read, step⟩ := ok_of_bind step
  cases read? with
  | none => cases step
  | some both =>
    obtain ⟨length, rest⟩ := both
    obtain ⟨contents, -, step⟩ := ok_of_bind step
    cases step
    have all := length_of_readLength read
    simp only [List.length_drop]
    omega

theorem hadoopTurn_takes (s : BlockState) (chunks : List (List UInt8)) (next : BlockState)
    (step : hadoopTurn decode s = .ok (some ⟨chunks, next⟩)) :
    next.unread.length + 4 ≤ s.unread.length := by
  obtain ⟨read?, read, step⟩ := ok_of_bind step
  cases read? with
  | none =>
    dsimp only at step
    split at step <;> cases step
  | some both =>
    obtain ⟨length, rest⟩ := both
    have all := length_of_readLength read
    dsimp only at step
    split at step
    · obtain ⟨contents, -, step⟩ := ok_of_bind step
      cases step
      simp only [List.length_drop]
      omega
    · cases step
      exact Nat.le_of_eq all

/-! ## Reading is running -/

theorem runs_xerialChunks (bs : List UInt8) :
    Runs (xerialTurn decode) bs (xerialChunks decode bs) := by
  fun_induction xerialChunks decode bs with
  | case1 => exact .ends rfl
  | case2 a b c d rest length f failed =>
    have step : xerialTurn decode (a :: b :: c :: d :: rest) = .error f := by
      simp only [xerialTurn, readLength, bind, Except.bind]
      rw [show chunk decode (signed a b c d) rest = .error f from failed]
    exact .fails step
  | case3 a b c d rest length contents whole ih =>
    have step : xerialTurn decode (a :: b :: c :: d :: rest) =
        .ok (some ⟨[contents], rest.drop length.toNat⟩) := by
      simp only [xerialTurn, readLength, bind, Except.bind]
      rw [show chunk decode (signed a b c d) rest = .ok contents from whole]
      rfl
    exact .goesOn step ih
  | case4 bs some few =>
    have step : xerialTurn decode bs = fail .snappyLengthCutOff := by
      rw [xerialTurn, readLength.eq_3 bs some few]
      rfl
    exact .fails step

theorem runs_hadoopBlocks (block : OpenBlock) (bs : List UInt8) :
    Runs (hadoopTurn decode) ⟨bs, block⟩ (hadoopBlocks decode block bs) := by
  fun_induction hadoopBlocks decode block bs with
  | case1 block short =>
    have step : hadoopTurn decode ⟨[], block⟩ = fail (.hadoopBlockCutOff block.size block.produced) := by
      simp only [hadoopTurn, readLength, bind, Except.bind, short, if_true]
    exact .fails step
  | case2 block full =>
    have step : hadoopTurn decode ⟨[], block⟩ = .ok none := by
      simp only [hadoopTurn, readLength, bind, Except.bind, full]
      rfl
    exact .ends step
  | case3 block a b c d rest length short f failed =>
    have step : hadoopTurn decode ⟨a :: b :: c :: d :: rest, block⟩ = .error f := by
      simp only [hadoopTurn, readLength, bind, Except.bind, short, if_true]
      rw [show chunk decode (signed a b c d) rest = .error f from failed]
    exact .fails step
  | case4 block a b c d rest length short contents whole ih =>
    have step : hadoopTurn decode ⟨a :: b :: c :: d :: rest, block⟩ = .ok (some ⟨[contents],
        ⟨rest.drop length.toNat, { block with produced := block.produced + contents.length }⟩⟩) := by
      simp only [hadoopTurn, readLength, bind, Except.bind, short, if_true]
      rw [show chunk decode (signed a b c d) rest = .ok contents from whole]
      rfl
    exact .goesOn step ih
  | case5 block a b c d rest length full ih =>
    have step : hadoopTurn decode ⟨a :: b :: c :: d :: rest, block⟩ =
        .ok (some ⟨[], ⟨rest, { size := length }⟩⟩) := by
      simp only [hadoopTurn, readLength, bind, Except.bind, full]
      rfl
    exact .goesOn step ih
  | case6 block bs some few =>
    have step : hadoopTurn decode ⟨bs, block⟩ = fail .snappyLengthCutOff := by
      simp only [hadoopTurn, readLength.eq_3 bs some few]
      rfl
    exact .fails step

variable (decode)

/-- The runs over a Xerial stream: no length is read if the header is missing. -/
def XerialRuns (bs : List UInt8) (frames : Frames) : Prop :=
  if bs.take xerialMagic.length = xerialMagic then
    Runs (xerialTurn decode) (bs.drop xerialHeaderLength) frames
  else frames = .stopped .xerialHeaderMissing

/-- The runs over a Hadoop stream, which begins with a block. -/
def HadoopRuns (bs : List UInt8) (frames : Frames) : Prop :=
  Runs (hadoopTurn decode) ⟨bs, { size := 0 }⟩ frames

theorem xerialRuns_iff (bs : List UInt8) (frames : Frames) :
    XerialRuns decode bs frames ↔ frames = xerial decode bs := by
  rw [XerialRuns, xerial]
  split
  · have run := @runs_xerialChunks decode (bs.drop xerialHeaderLength)
    exact ⟨fun other => other.unique run, fun same => same ▸ run⟩
  · rfl

theorem hadoopRuns_iff (bs : List UInt8) (frames : Frames) :
    HadoopRuns decode bs frames ↔ frames = hadoop decode bs := by
  have run := @runs_hadoopBlocks decode { size := 0 } bs
  exact ⟨fun other => other.unique run, fun same => same ▸ run⟩

/-- Over any bytes and with any decoder of chunks, each of the two loops has exactly one run, which comes to
the end of the loop or to a failure, and it reads at most one length for every four of the bytes and one
more. -/
theorem loops_stop (bs : List UInt8) :
    (∀ frames, XerialRuns decode bs frames ↔ frames = xerial decode bs) ∧
      (xerial decode bs).lengthReads ≤ bs.length / 4 + 1 ∧
      (∀ frames, HadoopRuns decode bs frames ↔ frames = hadoop decode bs) ∧
      (hadoop decode bs).lengthReads ≤ bs.length / 4 + 1 := by
  refine ⟨xerialRuns_iff decode bs, ?_, hadoopRuns_iff decode bs, ?_⟩
  · rw [xerial]
    split
    · have bound := (@runs_xerialChunks decode (bs.drop xerialHeaderLength)).lengthReads_le xerialTurn_takes
      rw [List.length_drop] at bound
      omega
    · exact Nat.zero_le _
  · have bound := (@runs_hadoopBlocks decode { size := 0 } bs).lengthReads_le hadoopTurn_takes
    change 4 * (hadoop decode bs).lengthReads ≤ bs.length + 4 at bound
    omega

/-- As many lengths are read as there may be where a Hadoop stream is made of blocks that hold nothing. -/
theorem lengthReads_emptyBlocks (n : Nat) : (hadoop decode (List.replicate (4 * n) 0)).lengthReads = n + 1 := by
  rw [hadoop]
  induction n with
  | zero => simp [hadoopBlocks, OpenBlock.isShort]
  | succ n ih =>
    have more : List.replicate (4 * (n + 1)) (0 : UInt8) = 0 :: 0 :: 0 :: 0 :: List.replicate (4 * n) 0 := rfl
    have none : signed 0 0 0 0 = 0 := by decide
    rw [more, hadoopBlocks, none]
    exact congrArg (· + 1) ih

end SchemaOnRead.Snappy
