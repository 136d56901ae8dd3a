import SchemaOnRead.Storage.Path

/-!
# Compression formats

The formats in which an object may be compressed, recognised by the extension of its path in any
letter case.
-/

namespace SchemaOnRead

/-- A format of compressed data. -/
inductive Compression where
  | bzip2
  | gzip
  | xz
  | lz4
  | xerialSnappy
  | hadoopSnappy
  deriving DecidableEq, Repr

namespace Compression

def all : List Compression := [bzip2, gzip, xz, lz4, xerialSnappy, hadoopSnappy]

/-- The extension of a format. -/
def extension : Compression → String
  | bzip2 => "bz2"
  | gzip => "gz"
  | xz => "xz"
  | lz4 => "lz4"
  | xerialSnappy => "xsnappy"
  | hadoopSnappy => "snappy"

/-- The format of an extension. -/
def ofExtension? (ext : String) : Option Compression :=
  let ext := Text.lowercase ext
  all.find? (·.extension == ext)

/-- The format of an object, by its path. -/
def ofPath? (path : String) : Option Compression :=
  let ext := Path.extension path
  if ext.isEmpty then none else ofExtension? ext

end Compression

end SchemaOnRead
