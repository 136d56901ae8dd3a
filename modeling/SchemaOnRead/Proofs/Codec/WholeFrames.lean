import SchemaOnRead.Codec.Snappy.Block
import SchemaOnRead.Codec.Snappy.Framing

/-!
# Streams of whole frames

Which bytes a framed stream is made of when it is read to its end without a failure
(`read_to_end_iff`). A Xerial stream is then a header followed by whole chunks, or the beginning of a
header that holds the first bytes. A Hadoop stream is a sequence of blocks, each of them with as many
whole chunks as it takes to hold what the block declares; the last of these may hold more than that, and
a block that declares a negative length has none.
-/

namespace SchemaOnRead.Snappy

variable {decode : List UInt8 → Option (List UInt8)}

/-! ## Lengths and chunks -/

/-- The four bytes of a length. -/
structure LengthField where
  a : UInt8
  b : UInt8
  c : UInt8
  d : UInt8

namespace LengthField

def bytes (f : LengthField) : List UInt8 := [f.a, f.b, f.c, f.d]

/-- The length that a field declares. -/
def value (f : LengthField) : Int := signed f.a f.b f.c f.d

/-- The field that declares a length. -/
def ofNat (n : Nat) : LengthField :=
  ⟨(n / twoTo 24 % 256).toUInt8, (n / twoTo 16 % 256).toUInt8, (n / twoTo 8 % 256).toUInt8,
    (n % 256).toUInt8⟩

theorem value_ofNat {n : Nat} (small : n < twoTo 31) : (ofNat n).value = n := by
  have whole : bigEndian [(ofNat n).a, (ofNat n).b, (ofNat n).c, (ofNat n).d] = n := by
    simp [bigEndian, ofNat, twoTo] at *
    omega
  rw [value, signed, whole, if_pos small]

end LengthField

/-- A chunk as it stands in a stream: its length, as many compressed bytes, and what they hold. -/
structure WholeChunk (decode : List UInt8 → Option (List UInt8)) where
  length : LengthField
  data : List UInt8
  contents : List UInt8
  full : length.value = data.length
  decoded : decode data = some contents

def WholeChunk.bytes (c : WholeChunk decode) : List UInt8 := c.length.bytes ++ c.data

/-- How much chunks hold. -/
def held (chunks : List (WholeChunk decode)) : Nat := (chunks.flatMap WholeChunk.contents).length

theorem held_cons (c : WholeChunk decode) (chunks : List (WholeChunk decode)) :
    held (c :: chunks) = c.contents.length + held chunks := by
  simp [held]

/-- No chunk of a negative length is read. -/
theorem chunk_negative {length : Int} (negative : length < 0) (bs contents : List UInt8) :
    chunk decode length bs ≠ .ok contents := by
  rw [chunk, chunkBytes]
  by_cases below : length < -1
  · rw [if_pos below]
    exact fun read => by cases read
  · have other : (bs.length : Int) ≠ length := by omega
    rw [if_neg below, if_pos negative, Except.bind, if_pos other]
    exact fun read => by cases read

/-- A chunk is read exactly if its bytes are all there and can be decoded. -/
theorem chunk_eq_ok {length : Int} {bs contents : List UInt8} :
    chunk decode length bs = .ok contents ↔
      length = (bs.take length.toNat).length ∧ decode (bs.take length.toNat) = some contents := by
  by_cases negative : length < 0
  · have never : length ≠ ((bs.take length.toNat).length : Int) := by omega
    exact iff_of_false (chunk_negative negative bs contents) fun both => never both.1
  · have large : ¬ length < -1 := by omega
    rw [chunk, chunkBytes, if_neg large, if_neg negative, Except.bind]
    by_cases cut : ((bs.take length.toNat).length : Int) ≠ length
    · rw [if_pos cut]
      exact ⟨nofun, fun both => absurd both.1.symm cut⟩
    · have full : length = ((bs.take length.toNat).length : Int) := by omega
      rw [if_neg cut, and_iff_right full]
      cases decode (bs.take length.toNat) with
      | none => exact ⟨nofun, nofun⟩
      | some found => simp

/-- The chunk that is read from the bytes after a length. -/
theorem exists_wholeChunk {f : LengthField} {bs contents : List UInt8}
    (read : chunk decode f.value bs = .ok contents) :
    ∃ c : WholeChunk decode, c.length = f ∧ c.contents = contents ∧
      c.data ++ bs.drop f.value.toNat = bs := by
  obtain ⟨full, decoded⟩ := chunk_eq_ok.mp read
  exact ⟨⟨f, bs.take f.value.toNat, contents, full, decoded⟩, rfl, rfl, List.take_append_drop _ bs⟩

/-- A whole chunk is read, whatever follows it. -/
theorem WholeChunk.read (c : WholeChunk decode) (rest : List UInt8) :
    chunk decode c.length.value (c.data ++ rest) = .ok c.contents ∧
      (c.data ++ rest).drop c.length.value.toNat = rest := by
  have size : c.length.value.toNat = c.data.length := by
    have full := c.full
    omega
  constructor
  · rw [chunk_eq_ok, size, List.take_left]
    exact ⟨c.full, c.decoded⟩
  · rw [size, List.drop_left]

/-! ## Xerial streams -/

/-- A Xerial stream: a header that begins with the first bytes, and chunks. Nothing follows a header that
is cut off. -/
structure XerialStream (decode : List UInt8 → Option (List UInt8)) where
  header : List UInt8
  chunks : List (WholeChunk decode)
  magic : xerialMagic <+: header
  whole : header.length = xerialHeaderLength ∨ header.length < xerialHeaderLength ∧ chunks = []

def XerialStream.bytes (x : XerialStream decode) : List UInt8 :=
  x.header ++ x.chunks.flatMap WholeChunk.bytes

/-- Reading goes on after a whole chunk. -/
theorem xerialChunks_chunk (c : WholeChunk decode) (rest : List UInt8) :
    xerialChunks decode (c.bytes ++ rest) = ((xerialChunks decode rest).cons c.contents).counted := by
  obtain ⟨read, left⟩ := c.read rest
  rw [LengthField.value] at read left
  show xerialChunks decode (c.length.a :: c.length.b :: c.length.c :: c.length.d :: (c.data ++ rest)) = _
  rw [xerialChunks]
  simp only [read, left]

/-- Whole chunks are read to the end. -/
theorem xerialChunks_wholeChunks (chunks : List (WholeChunk decode)) :
    (xerialChunks decode (chunks.flatMap WholeChunk.bytes)).failure = none ∧
      (xerialChunks decode (chunks.flatMap WholeChunk.bytes)).chunks =
        chunks.map WholeChunk.contents := by
  induction chunks with
  | nil => simp [xerialChunks]
  | cons c later ih =>
    obtain ⟨whole, all⟩ := ih
    rw [List.flatMap_cons, xerialChunks_chunk]
    constructor
    · exact whole
    · exact congrArg (c.contents :: ·) all

/-- Bytes that are read to the end are whole chunks. -/
theorem wholeChunks_of_xerialChunks {bs : List UInt8}
    (whole : (xerialChunks decode bs).failure = none) :
    ∃ chunks : List (WholeChunk decode), bs = chunks.flatMap WholeChunk.bytes := by
  fun_induction xerialChunks decode bs with
  | case1 => exact ⟨[], rfl⟩
  | case2 a b c d rest length f failed => cases whole
  | case3 a b c d rest length contents read ih =>
    obtain ⟨chunks, same⟩ := ih whole
    obtain ⟨first, field, -, parted⟩ := exists_wholeChunk (f := ⟨a, b, c, d⟩) read
    refine ⟨first :: chunks, ?_⟩
    rw [LengthField.value] at parted
    rw [List.flatMap_cons, ← same, WholeChunk.bytes, List.append_assoc, parted, field]
    rfl
  | case4 => cases whole

/-- A Xerial stream is read to its end. -/
theorem xerial_stream (x : XerialStream decode) :
    (xerial decode x.bytes).failure = none ∧
      (xerial decode x.bytes).chunks = x.chunks.map WholeChunk.contents := by
  obtain ⟨more, begins⟩ := x.magic
  have first : x.bytes.take xerialMagic.length = xerialMagic := by
    rw [XerialStream.bytes, ← begins, List.append_assoc, List.take_left]
  have after : x.bytes.drop xerialHeaderLength = x.chunks.flatMap WholeChunk.bytes := by
    rw [XerialStream.bytes]
    rcases x.whole with full | ⟨short, none⟩
    · rw [← full, List.drop_left]
    · simp only [none, List.flatMap_nil, List.append_nil]
      exact List.drop_eq_nil_of_le (by omega)
  rw [xerial, if_pos first, after]
  exact xerialChunks_wholeChunks x.chunks

/-- Bytes that are read to the end as a Xerial stream are one. -/
theorem stream_of_xerial {bs : List UInt8} (whole : (xerial decode bs).failure = none) :
    ∃ x : XerialStream decode, bs = x.bytes := by
  rw [xerial] at whole
  by_cases begins : bs.take xerialMagic.length = xerialMagic
  · rw [if_pos begins] at whole
    obtain ⟨chunks, same⟩ := wholeChunks_of_xerialChunks whole
    have magic : xerialMagic <+: bs.take xerialHeaderLength := by
      have shorter : bs.take xerialMagic.length <+: bs.take xerialHeaderLength :=
        List.take_prefix_take_left (by decide)
      rwa [begins] at shorter
    have parted : bs = bs.take xerialHeaderLength ++ chunks.flatMap WholeChunk.bytes := by
      rw [← same, List.take_append_drop]
    by_cases short : bs.length < xerialHeaderLength
    · refine ⟨⟨bs, [], (List.prefix_iff_eq_take.mpr begins.symm), .inr ⟨short, rfl⟩⟩, ?_⟩
      simp [XerialStream.bytes]
    · exact ⟨⟨_, chunks, magic, .inl (by simp; omega)⟩, parted⟩
  · rw [if_neg begins] at whole
    cases whole

/-! ## Hadoop streams -/

/-- A block of a Hadoop stream: the length of its contents, and as many chunks as it takes to hold as
much. Without the last one they hold less. -/
structure Block (decode : List UInt8 → Option (List UInt8)) where
  size : LengthField
  chunks : List (WholeChunk decode)
  enough : size.value ≤ held chunks
  needed : chunks ≠ [] → (held chunks.dropLast : Int) < size.value

namespace Block

def bytes (b : Block decode) : List UInt8 := b.size.bytes ++ b.chunks.flatMap WholeChunk.bytes

/-- The contents of a block's chunks. -/
def contents (b : Block decode) : List (List UInt8) := b.chunks.map WholeChunk.contents

end Block

/-- Chunks are those that an open block still takes. -/
def Fills (b : OpenBlock) : List (WholeChunk decode) → Prop
  | [] => b.isShort = false
  | c :: later => b.isShort = true ∧ Fills { b with produced := b.produced + c.contents.length } later

theorem fills_iff {size : Int} {produced : Nat} {chunks : List (WholeChunk decode)} :
    Fills ⟨size, produced⟩ chunks ↔
      size ≤ produced + held chunks ∧ (chunks ≠ [] → (produced + held chunks.dropLast : Int) < size) := by
  induction chunks generalizing produced with
  | nil => simp [Fills, OpenBlock.isShort, held]
  | cons c later ih =>
    rw [Fills, ih, held_cons]
    simp only [OpenBlock.isShort, decide_eq_true_eq]
    cases later with
    | nil =>
      simp [held]
      omega
    | cons d later =>
      rw [List.dropLast_cons_of_ne_nil (List.cons_ne_nil d later), held_cons c (d :: later).dropLast]
      simp only [ne_eq, reduceCtorEq, not_false_eq_true, forall_const]
      omega

theorem Block.fills (b : Block decode) : Fills ⟨b.size.value, 0⟩ b.chunks := by
  rw [fills_iff]
  have enough := b.enough
  have needed := b.needed
  exact ⟨by omega, fun some => by have := needed some; omega⟩

/-- Reading goes on after a whole chunk of an open block. -/
theorem hadoopBlocks_chunk {b : OpenBlock} (short : b.isShort = true) (c : WholeChunk decode)
    (rest : List UInt8) :
    hadoopBlocks decode b (c.bytes ++ rest) =
      ((hadoopBlocks decode { b with produced := b.produced + c.contents.length } rest).cons
        c.contents).counted := by
  obtain ⟨read, left⟩ := c.read rest
  rw [LengthField.value] at read left
  show hadoopBlocks decode b
    (c.length.a :: c.length.b :: c.length.c :: c.length.d :: (c.data ++ rest)) = _
  rw [hadoopBlocks]
  simp only [short, if_true, read, left]

/-- A block is opened after one that is full. -/
theorem hadoopBlocks_block {b : OpenBlock} (full : b.isShort = false) (size : LengthField)
    (rest : List UInt8) :
    hadoopBlocks decode b (size.bytes ++ rest) =
      (hadoopBlocks decode ⟨size.value, 0⟩ rest).counted := by
  show hadoopBlocks decode b (size.a :: size.b :: size.c :: size.d :: rest) = _
  rw [hadoopBlocks]
  simp only [full, LengthField.value]
  rfl

/-- The rest of an open block and further blocks are read to the end. -/
theorem hadoopBlocks_blocks {b : OpenBlock} {chunks : List (WholeChunk decode)}
    (fills : Fills b chunks) (blocks : List (Block decode)) :
    (hadoopBlocks decode b
        (chunks.flatMap WholeChunk.bytes ++ blocks.flatMap Block.bytes)).failure = none ∧
      (hadoopBlocks decode b
        (chunks.flatMap WholeChunk.bytes ++ blocks.flatMap Block.bytes)).chunks =
        chunks.map WholeChunk.contents ++ blocks.flatMap Block.contents := by
  induction blocks generalizing b chunks with
  | nil =>
    induction chunks generalizing b with
    | nil =>
      rw [Fills] at fills
      simp [hadoopBlocks, fills]
    | cons c later ih =>
      obtain ⟨short, others⟩ := fills
      obtain ⟨whole, all⟩ := ih others
      rw [List.flatMap_cons, List.append_assoc, hadoopBlocks_chunk short]
      exact ⟨whole, congrArg (c.contents :: ·) all⟩
  | cons block blocks next =>
    induction chunks generalizing b with
    | nil =>
      obtain ⟨whole, all⟩ := next block.fills
      rw [List.flatMap_nil, List.nil_append, List.flatMap_cons, Block.bytes, List.append_assoc,
        hadoopBlocks_block fills]
      exact ⟨whole, all⟩
    | cons c later ih =>
      obtain ⟨short, others⟩ := fills
      obtain ⟨whole, all⟩ := ih others
      rw [List.flatMap_cons, List.append_assoc, hadoopBlocks_chunk short]
      exact ⟨whole, congrArg (c.contents :: ·) all⟩

/-- Blocks are read to the end. -/
theorem hadoop_blocks (blocks : List (Block decode)) :
    (hadoop decode (blocks.flatMap Block.bytes)).failure = none ∧
      (hadoop decode (blocks.flatMap Block.bytes)).chunks = blocks.flatMap Block.contents := by
  have none : Fills ⟨0, 0⟩ ([] : List (WholeChunk decode)) := by simp [Fills, OpenBlock.isShort]
  exact hadoopBlocks_blocks none blocks

/-- Bytes that are read to the end are the rest of the open block and further blocks. -/
theorem blocks_of_hadoopBlocks {b : OpenBlock} {bs : List UInt8}
    (whole : (hadoopBlocks decode b bs).failure = none) :
    ∃ (chunks : List (WholeChunk decode)) (blocks : List (Block decode)), Fills b chunks ∧
      bs = chunks.flatMap WholeChunk.bytes ++ blocks.flatMap Block.bytes := by
  fun_induction hadoopBlocks decode b bs with
  | case1 b short => cases whole
  | case2 b full => exact ⟨[], [], by simpa [Fills] using full, rfl⟩
  | case3 b a₁ a₂ a₃ a₄ rest length short f failed => cases whole
  | case4 b a₁ a₂ a₃ a₄ rest length short contents read ih =>
    obtain ⟨chunks, blocks, fills, same⟩ := ih whole
    obtain ⟨first, field, rfl, parted⟩ := exists_wholeChunk (f := ⟨a₁, a₂, a₃, a₄⟩) read
    refine ⟨first :: chunks, blocks, ⟨short, fills⟩, ?_⟩
    rw [LengthField.value] at parted
    rw [List.flatMap_cons, List.append_assoc, ← same, WholeChunk.bytes, List.append_assoc, parted, field]
    rfl
  | case5 b a₁ a₂ a₃ a₄ rest length full ih =>
    obtain ⟨chunks, blocks, fills, same⟩ := ih whole
    obtain ⟨enough, needed⟩ := fills_iff.mp fills
    have enough : length ≤ held chunks := by omega
    have needed : chunks ≠ [] → (held chunks.dropLast : Int) < length := by
      intro some
      have less := needed some
      omega
    refine ⟨[], ⟨⟨a₁, a₂, a₃, a₄⟩, chunks, enough, needed⟩ :: blocks, by simpa [Fills] using full, ?_⟩
    rw [List.flatMap_nil, List.nil_append, List.flatMap_cons, Block.bytes, List.append_assoc, ← same]
    rfl
  | case6 => cases whole

/-! ## Reading to the end -/

/-- A stream is read to its end without a failure, and gives some contents, exactly if it is made of whole
frames that hold them. The header of a Xerial stream may be cut off after its first eight bytes if nothing
follows it. A block of a Hadoop stream may hold more than it declares, by its last chunk only, and a block
that declares a negative length holds nothing. -/
theorem read_to_end_iff (decode : List UInt8 → Option (List UInt8)) (bs : List UInt8)
    (contents : List (List UInt8)) :
    ((xerial decode bs).failure = none ∧ (xerial decode bs).chunks = contents ↔
        ∃ x : XerialStream decode, bs = x.bytes ∧ contents = x.chunks.map WholeChunk.contents) ∧
      ((hadoop decode bs).failure = none ∧ (hadoop decode bs).chunks = contents ↔
        ∃ blocks : List (Block decode),
          bs = blocks.flatMap Block.bytes ∧ contents = blocks.flatMap Block.contents) := by
  constructor
  · constructor
    · rintro ⟨whole, rfl⟩
      obtain ⟨x, rfl⟩ := stream_of_xerial whole
      exact ⟨x, rfl, (xerial_stream x).2⟩
    · rintro ⟨x, rfl, rfl⟩
      exact xerial_stream x
  · constructor
    · rintro ⟨whole, rfl⟩
      obtain ⟨chunks, blocks, fills, rfl⟩ := blocks_of_hadoopBlocks whole
      cases chunks with
      | nil => exact ⟨blocks, rfl, (hadoop_blocks blocks).2⟩
      | cons c later => cases fills.1
    · rintro ⟨blocks, rfl, rfl⟩
      exact hadoop_blocks blocks

/-- The first eight bytes of a header. -/
def cutHeader : XerialStream decode? :=
  ⟨xerialMagic, [], List.prefix_rfl, .inr ⟨by decide, rfl⟩⟩

/-- A block that declares a negative length. -/
def negativeBlock : Block decode? := ⟨⟨255, 255, 255, 255⟩, [], by decide, by decide⟩

/-- A chunk of two letters. -/
def twoLetters : WholeChunk decode? :=
  ⟨.ofNat 4, [2, 4, 97, 98], [97, 98], by decide, by decide +kernel⟩

/-- A block that declares one letter. -/
def overfullBlock : Block decode? := ⟨.ofNat 1, [twoLetters], by decide, by decide⟩

/-- Half a header is read to the end, and so are blocks that declare less than they hold. -/
theorem read_to_end_iff_misdeclared :
    cutHeader.bytes.length = 8 ∧ (xerial decode? cutHeader.bytes).failure = none ∧
      negativeBlock.size.value = -1 ∧ overfullBlock.size.value = 1 ∧ held overfullBlock.chunks = 2 ∧
      (hadoop decode? (negativeBlock.bytes ++ overfullBlock.bytes)).failure = none := by
  have cut := ((read_to_end_iff decode? cutHeader.bytes []).1.mpr ⟨cutHeader, rfl, rfl⟩).1
  have blocks := ((read_to_end_iff decode? (negativeBlock.bytes ++ overfullBlock.bytes) [[97, 98]]).2.mpr
    ⟨[negativeBlock, overfullBlock], rfl, rfl⟩).1
  exact ⟨rfl, cut, by decide, by decide, rfl, blocks⟩

end SchemaOnRead.Snappy
