import Mathlib.Data.List.Forall2
import SchemaOnRead.Proofs.Codec.WholeFrames

/-!
# Framed streams read piece by piece

What has been written as a framed stream is handed out again, in pieces that are as large as they are
asked for or smaller (`handsOut_written`). Chunks, blocks and requests end where they like: a piece never
goes beyond a chunk, a chunk that holds nothing is passed over, and only at the end of the stream is there
a piece with nothing in it.
-/

namespace SchemaOnRead.Snappy

/-! ## Requests one after another -/

namespace ChunkReader

/-- What a reader still has to hand out. -/
def left (r : ChunkReader) : List UInt8 := r.pending ++ r.later.flatten

/-- The answers to requests for at most so many bytes, one after another. -/
def answers (r : ChunkReader) : List Nat → List (Result (List UInt8))
  | [] => []
  | n :: later => (r.read n).1 :: (r.read n).2.answers later

/-- What one request for at most `n` bytes comes to when nothing fails: it hands out the first of the
bytes that are left, none only if there are none. -/
structure Moved (r : ChunkReader) (n : Nat) (piece : List UInt8) (r' : ChunkReader) : Prop where
  within : piece.length ≤ n
  parted : piece ++ r'.left = r.left
  ends : piece = [] → r.left = []
  whole : r'.failure = none

variable {n : Nat} {later : List (List UInt8)}

theorem moved_readLater (positive : 0 < n) (later : List (List UInt8)) :
    ∃ piece r', readLater n none later = (.ok piece, r') ∧ Moved ⟨[], later, none⟩ n piece r' := by
  induction later with
  | nil => exact ⟨[], ⟨[], [], none⟩, rfl, Nat.zero_le n, rfl, fun _ => rfl, rfl⟩
  | cons chunk later ih =>
    cases chunk with
    | nil =>
      obtain ⟨piece, r', read, within, parted, ends, whole⟩ := ih
      refine ⟨piece, r', ?_, within, ?_, ?_, whole⟩
      · rw [readLater, read]
      · simpa [left] using parted
      · simpa [left] using ends
    | cons b bs =>
      refine ⟨(b :: bs).take n, ⟨(b :: bs).drop n, later, none⟩, rfl, ?_, ?_, ?_, rfl⟩
      · exact List.length_take_le n _
      · simp only [left, List.nil_append, List.flatten_cons, ← List.append_assoc, List.take_append_drop]
      · intro none
        rcases List.take_eq_nil_iff.mp none with zero | nothing
        · omega
        · cases nothing

theorem moved_read (positive : 0 < n) {r : ChunkReader} (whole : r.failure = none) :
    ∃ piece r', r.read n = (.ok piece, r') ∧ Moved r n piece r' := by
  obtain ⟨pending, later, failure⟩ := r
  simp only at whole
  subst whole
  cases pending with
  | nil => exact moved_readLater positive later
  | cons b bs =>
    refine ⟨(b :: bs).take n, ⟨(b :: bs).drop n, later, none⟩, rfl, ?_, ?_, ?_, rfl⟩
    · exact List.length_take_le n _
    · simp only [left, ← List.append_assoc, List.take_append_drop]
    · intro none
      rcases List.take_eq_nil_iff.mp none with zero | nothing
      · omega
      · cases nothing

end ChunkReader

/-- Pieces of bytes answer requests for at most so many of them: they are the bytes from the beginning on,
a piece with nothing in it comes only when all have been handed out, and enough requests get them all. -/
structure HandsOut (bytes : List UInt8) (sizes : List Nat) (pieces : List (List UInt8)) : Prop where
  within : List.Forall₂ (fun n piece => piece.length ≤ n) sizes pieces
  inOrder : pieces.flatten <+: bytes
  ends : ∀ before piece after, pieces = before ++ piece :: after →
    (piece = [] ↔ before.flatten = bytes)
  all : bytes.length ≤ sizes.length → pieces.flatten = bytes

namespace HandsOut

variable {bytes piece : List UInt8} {n : Nat} {sizes : List Nat} {pieces : List (List UInt8)}

theorem nil (bytes : List UInt8) : HandsOut bytes [] [] where
  within := .nil
  inOrder := List.nil_prefix
  ends := by simp
  all := by simp [eq_comm]

/-- One more piece in front. -/
theorem cons (within : piece.length ≤ n) (last : piece = [] → bytes = [])
    (later : HandsOut bytes sizes pieces) : HandsOut (piece ++ bytes) (n :: sizes) (piece :: pieces) where
  within := .cons within later.within
  inOrder := by
    rw [List.flatten_cons]
    exact (List.prefix_append_right_inj piece).mpr later.inOrder
  ends := by
    intro before part after same
    cases before with
    | nil =>
      obtain ⟨rfl, rfl⟩ := List.cons.inj same
      constructor
      · intro empty
        simp [empty, last empty]
      · intro whole
        exact (List.append_eq_nil_iff.mp whole.symm).1
    | cons first before =>
      obtain ⟨rfl, rest⟩ := List.cons.inj same
      rw [later.ends before part after rest, List.flatten_cons, List.append_cancel_left_eq]
  all := by
    intro enough
    rw [List.flatten_cons, List.append_cancel_left_eq]
    by_cases empty : piece = []
    · have nothing := last empty
      have inOrder := later.inOrder
      rw [nothing] at inOrder ⊢
      exact List.prefix_nil.mp inOrder
    · have some := List.length_pos_iff.mpr empty
      simp only [List.length_append, List.length_cons] at enough
      exact later.all (by omega)

end HandsOut

/-- Requests for some bytes each are answered with the bytes that are left, by induction on the
requests. -/
theorem handsOut_answers {sizes : List Nat} (positive : ∀ n ∈ sizes, 0 < n) {r : ChunkReader}
    (whole : r.failure = none) :
    ∃ pieces, r.answers sizes = pieces.map .ok ∧ HandsOut r.left sizes pieces := by
  induction sizes generalizing r with
  | nil => exact ⟨[], rfl, .nil r.left⟩
  | cons n sizes ih =>
    obtain ⟨first, others⟩ := List.forall_mem_cons.mp positive
    obtain ⟨piece, r', read, moved⟩ := ChunkReader.moved_read first whole
    obtain ⟨pieces, same, later⟩ := ih others moved.whole
    refine ⟨piece :: pieces, ?_, ?_⟩
    · rw [ChunkReader.answers, read, same, List.map_cons]
    · rw [← moved.parted]
      refine .cons moved.within ?_ later
      intro empty
      have parted := moved.parted
      rw [moved.ends empty] at parted
      exact (List.append_eq_nil_iff.mp parted).2

/-- What a stream gives is handed out if it does not fail. -/
theorem handsOut_frames {sizes : List Nat} (positive : ∀ n ∈ sizes, 0 < n) {f : Frames}
    (whole : f.failure = none) :
    ∃ pieces, (ChunkReader.ofFrames f).answers sizes = pieces.map .ok ∧
      HandsOut f.chunks.flatten sizes pieces :=
  handsOut_answers positive (r := .ofFrames f) whole

/-! ## What has been written -/

section

variable {encode : List UInt8 → List UInt8} {decode : List UInt8 → Option (List UInt8)}

/-- A chunk can be written: it is got back from its compressed form, and the length of that fits the
length field. -/
structure Writes (encode : List UInt8 → List UInt8) (decode : List UInt8 → Option (List UInt8))
    (contents : List UInt8) : Prop where
  back : decode (encode contents) = some contents
  short : (encode contents).length < twoTo 31

/-- Chunks that are written are whole. -/
theorem exists_wholeChunks {chunks : List (List UInt8)} (writes : ∀ c ∈ chunks, Writes encode decode c) :
    ∃ whole : List (WholeChunk decode), whole.flatMap WholeChunk.bytes = chunks.flatMap (writeChunk encode) ∧
      whole.map WholeChunk.contents = chunks := by
  induction chunks with
  | nil => exact ⟨[], rfl, rfl⟩
  | cons c later ih =>
    obtain ⟨own, others⟩ := List.forall_mem_cons.mp writes
    obtain ⟨whole, bytes, contents⟩ := ih others
    refine ⟨⟨.ofNat (encode c).length, encode c, c, LengthField.value_ofNat own.short, own.back⟩ :: whole,
      ?_, ?_⟩
    · rw [List.flatMap_cons, List.flatMap_cons, bytes]
      rfl
    · rw [List.map_cons, contents]

theorem held_eq (chunks : List (WholeChunk decode)) :
    held chunks = (chunks.map WholeChunk.contents).flatten.length := by
  rw [held, List.flatMap_def]

/-- Without its last chunk, a block of chunks that are not empty holds less. -/
theorem held_dropLast_lt {chunks : List (WholeChunk decode)} (some : chunks ≠ [])
    (nonempty : ∀ c ∈ chunks, c.contents ≠ []) : held chunks.dropLast < held chunks := by
  have parted := List.dropLast_concat_getLast some
  have last := List.length_pos_iff.mpr (nonempty _ (List.getLast_mem some))
  have sum : held chunks = held chunks.dropLast + (chunks.getLast some).contents.length := by
    conv => lhs; rw [← parted]
    simp [held]
  omega

/-- Blocks that are written are whole. -/
theorem exists_blocks {blocks : List (List (List UInt8))}
    (writes : ∀ chunks ∈ blocks, ∀ c ∈ chunks, c ≠ [] ∧ Writes encode decode c)
    (short : ∀ chunks ∈ blocks, chunks.flatten.length < twoTo 31) :
    ∃ whole : List (Block decode), whole.flatMap Block.bytes = writeHadoop encode blocks ∧
      whole.flatMap Block.contents = blocks.flatten := by
  induction blocks with
  | nil => exact ⟨[], rfl, rfl⟩
  | cons chunks later ih =>
    obtain ⟨own, others⟩ := List.forall_mem_cons.mp writes
    obtain ⟨small, smaller⟩ := List.forall_mem_cons.mp short
    obtain ⟨whole, bytes, contents⟩ := ih others smaller
    obtain ⟨inner, innerBytes, innerContents⟩ := exists_wholeChunks fun c member => (own c member).2
    have total : held inner = chunks.flatten.length := by rw [held_eq, innerContents]
    have size : (LengthField.ofNat chunks.flatten.length).value = held inner := by
      rw [LengthField.value_ofNat small, total]
    have nonempty : ∀ c ∈ inner, c.contents ≠ [] := by
      intro c member
      have there : c.contents ∈ chunks := innerContents ▸ List.mem_map_of_mem member
      exact (own _ there).1
    have needed : inner ≠ [] →
        (held inner.dropLast : Int) < (LengthField.ofNat chunks.flatten.length).value := by
      intro some
      have less := held_dropLast_lt some nonempty
      omega
    refine ⟨⟨.ofNat chunks.flatten.length, inner, by omega, needed⟩ :: whole, ?_, ?_⟩
    · rw [List.flatMap_cons, bytes, Block.bytes, innerBytes]
      rfl
    · rw [List.flatMap_cons, contents, Block.contents, innerContents, List.flatten_cons]

/-- Chunks that are written as a Xerial stream are handed out again, whatever their lengths and those of
the pieces asked for, and so are those that are written as the blocks of a Hadoop stream. A Xerial stream
may hold empty chunks, and a Hadoop stream empty blocks. -/
theorem handsOut_written (encode : List UInt8 → List UInt8) (decode : List UInt8 → Option (List UInt8))
    {sizes : List Nat} (positive : ∀ n ∈ sizes, 0 < n) :
    (∀ (versions : List UInt8) (chunks : List (List UInt8)), versions.length = 8 →
        (∀ c ∈ chunks, Writes encode decode c) →
        ∃ pieces, (ChunkReader.ofFrames (xerial decode
            (xerialMagic ++ versions ++ chunks.flatMap (writeChunk encode)))).answers sizes =
            pieces.map .ok ∧
          HandsOut chunks.flatten sizes pieces) ∧
      ∀ blocks : List (List (List UInt8)),
        (∀ chunks ∈ blocks, ∀ c ∈ chunks, c ≠ [] ∧ Writes encode decode c) →
        (∀ chunks ∈ blocks, chunks.flatten.length < twoTo 31) →
        ∃ pieces, (ChunkReader.ofFrames (hadoop decode (writeHadoop encode blocks))).answers sizes =
            pieces.map .ok ∧
          HandsOut blocks.flatten.flatten sizes pieces := by
  constructor
  · intro versions chunks eight writes
    obtain ⟨inner, bytes, contents⟩ := exists_wholeChunks writes
    have full : (xerialMagic ++ versions).length = xerialHeaderLength := by
      rw [List.length_append, eight]
      rfl
    obtain ⟨whole, all⟩ := xerial_stream ⟨xerialMagic ++ versions, inner, List.prefix_append _ _, .inl full⟩
    rw [XerialStream.bytes, bytes] at whole all
    have answered := handsOut_frames positive whole
    rwa [all, contents] at answered
  · intro blocks writes short
    obtain ⟨inner, bytes, contents⟩ := exists_blocks writes short
    obtain ⟨whole, all⟩ := hadoop_blocks inner
    rw [bytes] at whole all
    have answered := handsOut_frames positive whole
    rwa [all, contents] at answered

end

/-- The compressed form of a text of at most 60 bytes in which nothing is repeated. -/
def literal (bs : List UInt8) : List UInt8 :=
  bs.length.toUInt8 :: if bs.isEmpty then [] else (4 * (bs.length - 1)).toUInt8 :: bs

/-- Five letters in chunks, two of which are empty. -/
def letters : List (List UInt8) := [[], [97, 98, 99], [], [100, 101]]

/-- Five letters in blocks, one of which is empty. -/
def letterBlocks : List (List (List UInt8)) := [[[97, 98, 99], [100]], [], [[101]]]

/-- Five letters are handed out in pieces of at most two. -/
theorem handsOut_written_letters :
    (∀ n ∈ [2, 2, 2, 2, 2], 0 < n) ∧ (∀ c ∈ letters, Writes literal decode? c) ∧
      (∀ chunks ∈ letterBlocks, ∀ c ∈ chunks, c ≠ [] ∧ Writes literal decode? c) ∧
      (∃ pieces, (ChunkReader.ofFrames (xerial decode? (writeXerial literal letters))).answers
          [2, 2, 2, 2, 2] = pieces.map .ok ∧
        HandsOut [97, 98, 99, 100, 101] [2, 2, 2, 2, 2] pieces) ∧
      ∃ pieces, (ChunkReader.ofFrames (hadoop decode? (writeHadoop literal letterBlocks))).answers
          [2, 2, 2, 2, 2] = pieces.map .ok ∧
        HandsOut [97, 98, 99, 100, 101] [2, 2, 2, 2, 2] pieces := by
  have positive : ∀ n ∈ [2, 2, 2, 2, 2], 0 < n := by decide
  have back : ∀ c ∈ letters ++ letterBlocks.flatten,
      decode? (literal c) = some c ∧ (literal c).length < twoTo 31 := by decide +kernel
  have nonempty : ∀ c ∈ letterBlocks.flatten, c ≠ [] := by decide
  have writes : ∀ c ∈ letters, Writes literal decode? c := by
    intro c member
    obtain ⟨own, short⟩ := back c (List.mem_append_left _ member)
    exact ⟨own, short⟩
  have writesBlocks : ∀ chunks ∈ letterBlocks, ∀ c ∈ chunks, c ≠ [] ∧ Writes literal decode? c := by
    intro chunks there c member
    have inside : c ∈ letterBlocks.flatten := List.mem_flatten.mpr ⟨chunks, there, member⟩
    obtain ⟨own, short⟩ := back c (List.mem_append_right _ inside)
    exact ⟨nonempty c inside, own, short⟩
  obtain ⟨xerialWritten, hadoopWritten⟩ := handsOut_written literal decode? positive
  exact ⟨positive, writes, writesBlocks, xerialWritten (lengthBytes 1 ++ lengthBytes 1) letters rfl writes,
    hadoopWritten letterBlocks writesBlocks (by decide)⟩

end SchemaOnRead.Snappy
