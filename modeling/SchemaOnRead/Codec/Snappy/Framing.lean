import SchemaOnRead.Codec.Bits
import SchemaOnRead.Failure

/-!
# Framed streams of blocks

Two ways to put compressed blocks one after another. A Xerial stream is a header followed by chunks,
each after its length. A Hadoop stream is a sequence of blocks, each made of the length of its
contents and of chunks that hold as much. `Frames` is what reading a stream gives, and a `ChunkReader`
hands out its bytes piece by piece. Both readers take the decoder of chunks as an argument.
-/

namespace SchemaOnRead.Snappy

/-- What reading a framed stream gave: the contents of its chunks in order, the number of lengths it
asked for, and why reading stopped before the end of the stream, if it did. -/
structure Frames where
  chunks : List (List UInt8)
  lengthReads : Nat
  failure : Option Failure := none

namespace Frames

/-- Puts a chunk in front. -/
def cons (chunk : List UInt8) (f : Frames) : Frames := { f with chunks := chunk :: f.chunks }

/-- Counts the reading of one more length. -/
def counted (f : Frames) : Frames := { f with lengthReads := f.lengthReads + 1 }

/-- A stream that stops for a cause. -/
def stopped (c : Cause) : Frames := ⟨[], 0, some c⟩

end Frames

/-- The integer that four bytes denote, most significant first, in two's complement. -/
def signed (a b c d : UInt8) : Int :=
  let n := bigEndian [a, b, c, d]
  if n < twoTo 31 then n else (n : Int) - twoTo 32

/-- The bytes of a chunk of a declared length, as many as there are. The length -1 asks for all of
them, and below that a length is no length. -/
def chunkBytes (length : Int) (bs : List UInt8) : Result (List UInt8) :=
  if length < -1 then fail (.other .badValue)
  else if length < 0 then .ok bs
  else .ok (bs.take length.toNat)

/-- The contents of a chunk. -/
def chunk (decode : List UInt8 → Option (List UInt8)) (length : Int) (bs : List UInt8) :
    Result (List UInt8) :=
  (chunkBytes length bs).bind fun data =>
    if (data.length : Int) ≠ length then fail (.snappyCutOff length data.length)
    else match decode data with
      | some contents => .ok contents
      | none => fail (.other .foreign)

/-! ## Xerial streams -/

/-- The first bytes of a Xerial stream. -/
def xerialMagic : List UInt8 := [0x82, 0x53, 0x4E, 0x41, 0x50, 0x50, 0x59, 0x00]

/-- The length of the header of a Xerial stream: the first bytes and two version numbers. -/
def xerialHeaderLength : Nat := 16

/-- Reads chunks up to the end of the bytes. -/
def xerialChunks (decode : List UInt8 → Option (List UInt8)) : List UInt8 → Frames
  | [] => ⟨[], 1, none⟩
  | a :: b :: c :: d :: rest =>
    let length := signed a b c d
    match chunk decode length rest with
    | .error f => ⟨[], 1, some f⟩
    | .ok contents => ((xerialChunks decode (rest.drop length.toNat)).cons contents).counted
  | _ => ⟨[], 1, some (Failure.mk .snappyLengthCutOff [])⟩
termination_by bs => bs.length
decreasing_by simp only [List.length_drop, List.length_cons]; omega

/-- Reads a Xerial stream. -/
def xerial (decode : List UInt8 → Option (List UInt8)) (bs : List UInt8) : Frames :=
  if bs.take xerialMagic.length = xerialMagic then xerialChunks decode (bs.drop xerialHeaderLength)
  else .stopped .xerialHeaderMissing

/-! ## Hadoop streams -/

/-- The block that is being read: the declared length of its contents, and how much its chunks have
held so far. -/
structure OpenBlock where
  size : Int
  produced : Nat := 0

/-- Whether a block needs further chunks. -/
def OpenBlock.isShort (b : OpenBlock) : Bool := (b.produced : Int) < b.size

/-- Reads blocks up to the end of the bytes, the rest of an open one first. -/
def hadoopBlocks (decode : List UInt8 → Option (List UInt8)) (block : OpenBlock) :
    List UInt8 → Frames
  | [] =>
    if block.isShort then
      ⟨[], 1, some (Failure.mk (.hadoopBlockCutOff block.size block.produced) [])⟩
    else ⟨[], 1, none⟩
  | a :: b :: c :: d :: rest =>
    let length := signed a b c d
    if block.isShort then
      match chunk decode length rest with
      | .error f => ⟨[], 1, some f⟩
      | .ok contents =>
        ((hadoopBlocks decode { block with produced := block.produced + contents.length }
          (rest.drop length.toNat)).cons contents).counted
    else (hadoopBlocks decode { size := length } rest).counted
  | _ => ⟨[], 1, some (Failure.mk .snappyLengthCutOff [])⟩
termination_by bs => bs.length
decreasing_by all_goals simp only [List.length_drop, List.length_cons]; omega

/-- Reads a Hadoop stream. -/
def hadoop (decode : List UInt8 → Option (List UInt8)) (bs : List UInt8) : Frames :=
  hadoopBlocks decode { size := 0 } bs

/-! ## Writing -/

/-- A number as four bytes, most significant first. -/
def lengthBytes (n : Nat) : List UInt8 :=
  [(n / twoTo 24 % 256).toUInt8, (n / twoTo 16 % 256).toUInt8, (n / twoTo 8 % 256).toUInt8,
    (n % 256).toUInt8]

/-- A compressed chunk after its length. -/
def writeChunk (encode : List UInt8 → List UInt8) (contents : List UInt8) : List UInt8 :=
  let data := encode contents
  lengthBytes data.length ++ data

/-- The header of a Xerial stream. -/
def xerialHeader : List UInt8 := xerialMagic ++ lengthBytes 1 ++ lengthBytes 1

/-- Chunks as a Xerial stream. -/
def writeXerial (encode : List UInt8 → List UInt8) (chunks : List (List UInt8)) : List UInt8 :=
  xerialHeader ++ chunks.flatMap (writeChunk encode)

/-- Chunks as a block of a Hadoop stream. -/
def writeBlock (encode : List UInt8 → List UInt8) (chunks : List (List UInt8)) : List UInt8 :=
  lengthBytes chunks.flatten.length ++ chunks.flatMap (writeChunk encode)

/-- Blocks of chunks as a Hadoop stream. -/
def writeHadoop (encode : List UInt8 → List UInt8) (blocks : List (List (List UInt8))) :
    List UInt8 :=
  blocks.flatMap (writeBlock encode)

/-! ## Reading piece by piece -/

/-- What is left to hand out of a stream: the rest of the current chunk, and what comes after it. -/
structure ChunkReader where
  pending : List UInt8
  later : List (List UInt8)
  failure : Option Failure

namespace ChunkReader

/-- A reader at the start of a stream. -/
def ofFrames (f : Frames) : ChunkReader := ⟨[], f.chunks, f.failure⟩

/-- Hands out at most `n` bytes of the first chunk that is not empty. -/
def readLater (n : Nat) (failure : Option Failure) :
    List (List UInt8) → Result (List UInt8) × ChunkReader
  | [] =>
    match failure with
    | some f => (.error f, ⟨[], [], none⟩)
    | none => (.ok [], ⟨[], [], none⟩)
  | [] :: later => readLater n failure later
  | (b :: bs) :: later => (.ok ((b :: bs).take n), ⟨(b :: bs).drop n, later, failure⟩)

/-- Hands out at most `n` bytes: none only at the end of the stream. -/
def read (n : Nat) (r : ChunkReader) : Result (List UInt8) × ChunkReader :=
  match r.pending with
  | [] => readLater n r.failure r.later
  | _ :: _ => (.ok (r.pending.take n), { r with pending := r.pending.drop n })

end ChunkReader

end SchemaOnRead.Snappy
