import Mathlib
import SchemaGate.Proofs.Request.MediaTypes

/-!
# Finding a registered decoder again

A decoder is filed under the media type that it is registered for, in lower case and without the
blanks around it, but with its parameters. It is searched for without them. So a decoder is found
under the media type that it was registered for exactly if this has no parameters
(`DecoderRegistry.lookup_register_iff`), and a decoder that was registered with parameters is never
found at all.

* `DecoderRegistry.Built` says which registries there are, and `DecoderRegistry.Built.mediaType_eq`
  what each of them keeps to: a decoder knows the name that it is filed under;
* `MediaType.semicolon_not_mem_candidate`: no search has parameters;
* `DecoderRegistry.lookup_register_of_not_mem`: which searches a registration leaves alone;
* `DecoderRegistry.csvWithCharset_lost`: a decoder that is registered and not found.
-/

namespace SchemaGate

/-! ## Names without parameters -/

namespace MediaType

variable {mediaType key : String}

theorem semicolon_not_mem_essence (mediaType : String) : ';' ∉ (essence mediaType).toList := by
  rw [toList_essence]
  intro h
  have hkept := List.mem_takeWhile_imp (Text.mem_of_mem_trimChars h)
  exact absurd rfl (bne_iff_ne.mp hkept)

/-- What a table is searched with has no parameters. -/
theorem semicolon_not_mem_candidate (h : key ∈ candidates (essence mediaType)) :
    ';' ∉ key.toList := by
  have hessence := semicolon_not_mem_essence mediaType
  have hranks := ranks_candidates mediaType
  generalize candidates (essence mediaType) = keys at h hranks
  cases hranks with
  | @of kind subtype hsplits =>
      have hparts : ';' ∉ kind.toList ∧ ';' ∉ subtype.toList := by
        cases hsplits with
        | slash _ heq =>
            rw [← heq] at hessence
            simpa [not_or] using hessence
        | whole _ => exact ⟨hessence, by decide⟩
      simp only [List.mem_cons, List.not_mem_nil, or_false] at h
      rcases h with rfl | rfl | rfl | rfl
      · exact hessence
      · simpa using hparts.1
      · simpa using hparts.2
      · decide

end MediaType

namespace DecoderRegistry

open Utf8 (Octets)

/-- What a decoder is filed under. -/
def filedName (mediaType : String) : String := (Text.trim mediaType).toLower

/-- The registries: there are no decoders at first, and then they are registered one by one. -/
inductive Built : DecoderRegistry → Prop
  | empty : Built empty
  | register {r : DecoderRegistry} (mediaType : String) (decode : Octets → Except String Decoded) :
      Built r → Built (r.register mediaType decode)

variable {r : DecoderRegistry} {mediaType other key : String}
  {decode : Octets → Except String Decoded}

/-! ## What is filed -/

theorem get?_register (key : String) :
    Entries.get? key (r.register mediaType decode).decoders =
      if filedName mediaType = key then some ⟨filedName mediaType, decode⟩
      else Entries.get? key r.decoders :=
  Entries.get?_file _ _ _ _

/-- A decoder knows the name that it is filed under. -/
theorem Built.mediaType_eq (h : r.Built) {d : Decoder} (hd : Entries.get? key r.decoders = some d) :
    d.mediaType = key := by
  induction h with
  | empty => cases hd
  | register mediaType decode _ ih =>
      rw [get?_register] at hd
      split at hd
      · rename_i hname
        cases hd
        exact hname
      · exact ih hd

/-- The parameters are filed too. -/
theorem semicolon_mem_filedName (h : ';' ∈ mediaType.toList) :
    ';' ∈ (filedName mediaType).toList := by
  have htrim : ';' ∈ Text.trimChars mediaType.toList := Text.mem_trimChars h (by decide)
  have hlower : ';'.toLower ∈ (Text.trimChars mediaType.toList).map Char.toLower :=
    List.mem_map_of_mem htrim
  simpa [filedName, Text.trim, String.toLower] using hlower

/-- But for the parameters, a decoder is filed under the essence. -/
theorem filedName_eq_essence (h : ';' ∉ mediaType.toList) :
    filedName mediaType = MediaType.essence mediaType := by
  rw [filedName, MediaType.essence, Text.trim,
    List.takeWhile_eq_self_iff.mpr (bne_of_not_mem h)]

/-- Names of different essences are filed apart. -/
theorem filedName_ne_essence (h : MediaType.essence other ≠ MediaType.essence mediaType) :
    filedName mediaType ≠ MediaType.essence other := by
  intro hname
  by_cases hparameters : ';' ∈ mediaType.toList
  · -- a name with parameters is the essence of nothing
    have hfiled := semicolon_mem_filedName hparameters
    rw [hname] at hfiled
    exact MediaType.semicolon_not_mem_essence other hfiled
  · rw [filedName_eq_essence hparameters] at hname
    exact h hname.symm

/-! ## What is found -/

/-- A registration leaves those searches alone that do not come to its name. -/
theorem lookup_register_of_not_mem
    (h : filedName mediaType ∉ MediaType.candidates (MediaType.essence other)) :
    (r.register mediaType decode).lookup other = r.lookup other := by
  have hsame : ∀ key ∈ MediaType.candidates (MediaType.essence other),
      Entries.get? key (r.register mediaType decode).decoders = Entries.get? key r.decoders := by
    intro key hkey
    have hne : filedName mediaType ≠ key := fun hname => h (hname ▸ hkey)
    rw [get?_register, if_neg hne]
  have hselect : MediaType.select
      (fun key => Entries.get? key (r.register mediaType decode).decoders)
      (MediaType.essence other) =
      MediaType.select (fun key => Entries.get? key r.decoders) (MediaType.essence other) :=
    findSome?_congr_of_mem hsame
  rw [lookup, lookup, hselect]

/-- The essence itself is searched for first. -/
theorem lookup_of_get? {d : Decoder}
    (h : Entries.get? (MediaType.essence other) r.decoders = some d) :
    r.lookup other = .ok d := by
  rw [lookup_eq_ok_iff (MediaType.ranks_candidates other)]
  refine ⟨MediaType.essence other, ?_, h⟩
  exact .here (Entries.mem_keys_of_mem (Entries.mem_of_get? h))

/-- Whatever names a media type is decoded by the decoder that is registered for it. -/
theorem lookup_register_of_names (hplain : ';' ∉ mediaType.toList) {written : String}
    (h : MediaType.Names mediaType written) :
    (r.register mediaType decode).lookup written = .ok ⟨filedName mediaType, decode⟩ := by
  apply lookup_of_get?
  rw [h.essence_eq, get?_register, if_pos (filedName_eq_essence hplain)]

/-- What is found is filed under a name without parameters. -/
theorem Built.semicolon_not_mem_of_lookup (h : r.Built) {d : Decoder}
    (hd : r.lookup other = .ok d) : ';' ∉ d.mediaType.toList := by
  obtain ⟨key, hfirst, hget⟩ := (lookup_eq_ok_iff (MediaType.ranks_candidates other)).mp hd
  rw [h.mediaType_eq hget]
  exact MediaType.semicolon_not_mem_candidate hfirst.mem

theorem lookup_register_of_parameters (h : ';' ∈ mediaType.toList) (other : String) :
    (r.register mediaType decode).lookup other = r.lookup other :=
  lookup_register_of_not_mem fun hmem =>
    MediaType.semicolon_not_mem_candidate hmem (semicolon_mem_filedName h)

/-- A decoder is found under the media type that it was registered for exactly if this has no
parameters, and then under everything that names it. With parameters the registration changes
nothing that can be found. In either case what is filed under the essence of another media type
goes on being found for that. -/
theorem lookup_register_iff (h : r.Built) (mediaType : String)
    (decode : Octets → Except String Decoded) :
    ((r.register mediaType decode).lookup mediaType = .ok ⟨filedName mediaType, decode⟩ ↔
      ';' ∉ mediaType.toList) ∧
    (';' ∉ mediaType.toList → ∀ written, MediaType.Names mediaType written →
      (r.register mediaType decode).lookup written = .ok ⟨filedName mediaType, decode⟩) ∧
    (';' ∈ mediaType.toList → ∀ other,
      (r.register mediaType decode).lookup other = r.lookup other) ∧
    ∀ other d, Entries.get? (MediaType.essence other) r.decoders = some d →
      MediaType.essence other ≠ MediaType.essence mediaType →
        (r.register mediaType decode).lookup other = .ok d := by
  refine ⟨⟨?_, ?_⟩, ?_, lookup_register_of_parameters, ?_⟩
  · intro hfound hparameters
    have hnone := (h.register mediaType decode).semicolon_not_mem_of_lookup hfound
    exact hnone (semicolon_mem_filedName hparameters)
  · intro hplain
    apply lookup_of_get?
    rw [get?_register, if_pos (filedName_eq_essence hplain)]
  · intro hplain written hnames
    exact lookup_register_of_names hplain hnames
  · intro other d hd hother
    apply lookup_of_get?
    rw [get?_register, if_neg (filedName_ne_essence hother), hd]

/-! ## Tables in text -/

theorem built_builtin : builtin.Built :=
  .register "application/x-www-form-urlencoded" Decoder.form
    (.register "application/json" Decoder.json .empty)

/-- Reads a body as a text. -/
def readText (body : Octets) : Except String Decoded := .ok ⟨.text (Utf8.decodeLossy body), false⟩

/-- Takes a body as it is. -/
def readOctets (body : Octets) : Except String Decoded := .ok ⟨.binary body, false⟩

/-- Registered without parameters, a decoder is found again, and the others are found as before. -/
theorem csv_found :
    builtin.Built ∧
      (builtin.register " Text/CSV " readText).lookup " Text/CSV " = .ok ⟨"text/csv", readText⟩ ∧
      (builtin.register " Text/CSV " readText).lookup "Application/JSON; charset=utf-8" =
        .ok ⟨"application/json", Decoder.json⟩ := by
  obtain ⟨hfound, -, -, hkept⟩ := lookup_register_iff built_builtin " Text/CSV " readText
  have hname : filedName " Text/CSV " = "text/csv" := by decide +kernel
  have hessence : MediaType.essence "Application/JSON; charset=utf-8" = "application/json" := by
    decide +kernel
  have hfiled : Entries.get? "application/json" builtin.decoders =
      some ⟨"application/json", Decoder.json⟩ := by
    cbv
  rw [hname] at hfound
  refine ⟨built_builtin, hfound.mpr (by decide), hkept _ _ ?_ (by decide +kernel)⟩
  rw [hessence, hfiled]

/-- A registry that takes every body as it is. -/
def anything : DecoderRegistry := empty.register "*/*" readOctets

/-- Registered with a parameter, a decoder is not found under the media type that it was registered
for: the body is decoded by the decoder that is there for anything. -/
theorem csvWithCharset_lost :
    anything.Built ∧ ∃ d,
      (anything.register "text/csv; charset=utf-8" readText).lookup "text/csv; charset=utf-8" =
        .ok d ∧
      d.mediaType = "*/*" ∧ d.decode [0x78] = .ok ⟨.binary [0x78], false⟩ ∧
      readText [0x78] = .ok ⟨.text "x", false⟩ := by
  refine ⟨.register "*/*" readOctets .empty, ⟨"*/*", readOctets⟩, ?_, rfl, rfl, ?_⟩
  · cbv
  · cbv

end DecoderRegistry

end SchemaGate
