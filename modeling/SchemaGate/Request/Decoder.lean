import SchemaGate.CompileError
import SchemaGate.Json.Reader
import SchemaGate.Request.Form
import SchemaGate.Request.MediaType
import SchemaGate.Text.Quoted

/-!
# Body decoders

A decoder turns the octets of a body into an input, and says whether texts in it may stand for
other kinds of values. A registry finds decoders by media type and its wildcards.

* `Decoder.json` reads written values; an empty body is no input;
* `Decoder.form` reads form data as an object of texts and arrays of texts.
-/

namespace SchemaGate

open Utf8 (Octets)

/-- A decoded body. -/
structure Decoded where
  value : Field
  raw : Bool

/-- A decoder with the media type that it was registered for. -/
structure Decoder where
  mediaType : String
  decode : Octets → Except String Decoded

/-- Decoders by media type, in the order of the media types. -/
structure DecoderRegistry where
  decoders : Entries Decoder

namespace Decoder

/-- Reads a written value. -/
def json (body : Octets) : Except String Decoded :=
  if body.isEmpty then .ok ⟨.absent, false⟩
  else
    match Json.read body with
    | .ok v => .ok ⟨.ofJson v, false⟩
    | .error e => .error e.message

/-- Reads form data. -/
def form (body : Octets) : Except String Decoded :=
  .ok ⟨.value (.object (Form.members (Form.pairs body))), true⟩

/-- How a decoder shows itself. -/
def describe (d : Decoder) : String :=
  "Decoder \x7b media_type: " ++ Text.quoted d.mediaType ++ ", .. \x7d"

end Decoder

namespace DecoderRegistry

/-- No decoders. -/
def empty : DecoderRegistry := ⟨[]⟩

/-- Registers a decoder; one of the same media type gives way. -/
def register (mediaType : String) (decode : Octets → Except String Decoded)
    (r : DecoderRegistry) : DecoderRegistry :=
  let key := (Text.trim mediaType).toLower
  ⟨Entries.file key ⟨key, decode⟩ r.decoders⟩

/-- The decoder for a media type. -/
def lookup (r : DecoderRegistry) (mediaType : String) : Except CompileError Decoder :=
  let essence := MediaType.essence mediaType
  match MediaType.select (fun key => Entries.get? key r.decoders) essence with
  | some d => .ok d
  | none => .error (.missingDecoder essence)

/-- The registered media types in order. -/
def mediaTypes (r : DecoderRegistry) : List String := Entries.keys r.decoders

/-- How a registry shows itself. -/
def describe (r : DecoderRegistry) : String :=
  "DecoderRegistry \x7b media_types: " ++ Text.quotedList r.mediaTypes ++ " \x7d"

/-- The registry that holds the decoders of this module. -/
def builtin : DecoderRegistry :=
  (empty.register "application/json" Decoder.json).register
    "application/x-www-form-urlencoded" Decoder.form

end DecoderRegistry

end SchemaGate
