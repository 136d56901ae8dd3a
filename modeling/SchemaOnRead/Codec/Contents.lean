import SchemaOnRead.Codec.Bzip2
import SchemaOnRead.Codec.Gzip
import SchemaOnRead.Codec.Lz4
import SchemaOnRead.Codec.Snappy.Block
import SchemaOnRead.Codec.Snappy.Framing
import SchemaOnRead.Codec.Xz
import SchemaOnRead.Storage.Compression

/-!
# Contents of objects

The contents of an object are its bytes, decompressed if the path says that they are compressed.
Damage shows when reading comes to it, so contents are the bytes before it together with the failure.
-/

namespace SchemaOnRead

/-- The bytes of an object that can be read, and the failure that comes after them if there is
one. -/
structure Contents where
  bytes : List UInt8
  failure : Option Failure := none

namespace Contents

/-- The contents that a decoder found. -/
def ofDecoded (d : Decoded) : Contents :=
  match d.rest with
  | .ok _ => ⟨d.output.toList, none⟩
  | .error _ => ⟨d.output.toList, some (Failure.mk (.other .foreign) [])⟩

/-- The contents of a framed stream. -/
def ofFrames (f : Snappy.Frames) : Contents := ⟨f.chunks.flatten, f.failure⟩

/-- The contents of compressed bytes. -/
def decompress (bs : List UInt8) : Compression → Contents
  | .bzip2 => ofDecoded (Bzip2.decode bs)
  | .gzip => ofDecoded (Gzip.decode bs)
  | .xz => ofDecoded (Xz.decode bs)
  | .lz4 => ofDecoded (Lz4.decode bs)
  | .xerialSnappy => ofFrames (Snappy.xerial Snappy.decode? bs)
  | .hadoopSnappy => ofFrames (Snappy.hadoop Snappy.decode? bs)

/-- The contents of an object with a path and stored bytes. -/
def ofObject (path : String) (bs : List UInt8) : Contents :=
  match Compression.ofPath? path with
  | some c => decompress bs c
  | none => ⟨bs, none⟩

/-- All bytes, if none is lost. -/
def all (c : Contents) : Result (List UInt8) :=
  match c.failure with
  | some f => .error f
  | none => .ok c.bytes

end Contents

end SchemaOnRead
