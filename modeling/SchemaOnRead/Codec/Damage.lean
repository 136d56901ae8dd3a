/-!
# Damage to compressed data

What a decoder found wrong, and the output of a decoder: the bytes it could decode, with the damage
that stopped it if it was stopped.
-/

namespace SchemaOnRead

/-- What is wrong with compressed data: it ends too early, or it does not follow its format. -/
inductive Damage where
  | cutOff
  | corrupt
  deriving DecidableEq, Repr

/-- A decoding step, which uses and changes a state that outlives failures. -/
abbrev DecoderM (σ : Type) := ExceptT Damage (StateM σ)

namespace DecoderM

/-- Stops for damage. -/
def stop {σ α : Type} (d : Damage) : DecoderM σ α := throw d

/-- A value that must be there. -/
def orStop {σ α : Type} (d : Damage) : Option α → DecoderM σ α
  | some a => pure a
  | none => throw d

/-- Stops for corruption unless a condition holds. -/
def check {σ : Type} (ok : Bool) : DecoderM σ Unit :=
  if ok then pure () else throw .corrupt

/-- Runs a decoder from a state. -/
def finish {σ α : Type} (x : DecoderM σ α) (s : σ) : Except Damage α × σ := Id.run (StateT.run x.run s)

end DecoderM

/-- What has been decoded, and where decoding stopped: at the end of the compressed data with the
bytes that follow it, or at damage. -/
structure Decoded where
  output : Array UInt8
  rest : Except Damage (List UInt8)

/-- The most bytes that are decoded in one step. -/
def decodingStep : Nat := 8192

/-- Decodes the streams after the first one. Bytes that show within the first step that they are no
stream do not count. -/
def laterStreams (stream : Array UInt8 → List UInt8 → Decoded) :
    Nat → Array UInt8 → List UInt8 → Decoded
  | 0, output, _ => ⟨output, .error .corrupt⟩
  | _, output, [] => ⟨output, .ok []⟩
  | fuel + 1, output, bs =>
    let d := stream output bs
    match d.rest with
    | .error .corrupt =>
      if d.output.size - output.size < decodingStep then ⟨output, .ok []⟩ else d
    | .error .cutOff => d
    | .ok rest => laterStreams stream fuel d.output rest

/-- Decodes a file of one stream or more, each of which takes up bytes. -/
def decodeStreams (stream : Array UInt8 → List UInt8 → Decoded) (bs : List UInt8) : Decoded :=
  let d := stream #[] bs
  match d.rest with
  | .error _ => d
  | .ok rest => laterStreams stream (bs.length + 1) d.output rest

/-- Appends `length` bytes to an output, each a copy of the one `distance` before it. -/
def copyBack (distance : Nat) : Nat → Array UInt8 → Array UInt8
  | 0, out => out
  | n + 1, out => copyBack distance n (out.push (out.getD (out.size - distance) 0))

/-- Appends a list of bytes to an output. -/
def pushBytes (out : Array UInt8) (bs : List UInt8) : Array UInt8 := bs.foldl Array.push out

end SchemaOnRead
