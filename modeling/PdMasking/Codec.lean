import PdMasking.Lib.JsonText
import PdMasking.MemoryStore

/-!
# PdMasking.Codec — how a record is stored: JSON, encrypted (`storage/codec.py`)

`Codec.encode` writes the record as compact JSON, encrypts its bytes with the payload id as associated data and
puts the nonce in front; `Codec.decode` goes back.  AES-256-GCM is known through `Aead`: what it has encrypted it
decrypts.

* `decode_encode`, `blob_determines_record`: a stored record is read back as it was.
* `recordCodec_lossless`: the stores may rely on it.
-/

namespace PdMasking

open Json

/-- `AESGCM(key)`; none is `InvalidTag`. -/
structure Aead where
  encrypt : (nonce data associated : ByteArray) → ByteArray
  decrypt : (nonce data associated : ByteArray) → Option ByteArray
  decrypt_encrypt : ∀ nonce data associated, decrypt nonce (encrypt nonce data associated) associated = some data

/-- `_NONCE_SIZE` -/
def NONCE_SIZE : ℕ := 12

/-- `os.urandom(_NONCE_SIZE)` -/
structure Nonce where
  bytes : ByteArray
  size_eq : bytes.size = NONCE_SIZE

/-- `str.encode` -/
def utf8 (s : Str) : ByteArray := (String.ofList s).toUTF8

/-- `bytes.decode` -/
def utf8Decode (b : ByteArray) : Option Str := b.utf8Decode?.map Array.toList

theorem utf8Decode_utf8 (s : Str) : utf8Decode (utf8 s) = some s := by
  show (s.utf8Encode.utf8Decode?).map Array.toList = some s
  rw [List.utf8Decode?_utf8Encode]
  rfl

namespace Codec

/-- `{"o": record.original, "m": record.masked, "f": record.fragments}` -/
def document (record : MappingRecord) : Doc :=
  .object [(['o'], .string record.original), (['m'], .string record.masked),
    (['f'], .array (record.fragments.map (fun f => .array [.string f.1, .string f.2])))]

/-- A text, and nothing else. -/
def text? : Json → Option Str
  | .string s => some s
  | _ => none

/-- `m, o` of a fragment. -/
def pair? : Json → Option (Str × Str)
  | .array [m, o] => do return (← text? m, ← text? o)
  | _ => none

/-- The record of the fields; `data.get("f", ())` may be missing. -/
def record? : Json → Option MappingRecord
  | .object members => do
    let original ← (member ['o'] members).bind text?
    let masked ← (member ['m'] members).bind text?
    match member ['f'] members with
    | none => return ⟨original, masked, []⟩
    | some (.array items) => return ⟨original, masked, ← items.mapM pair?⟩
    | some _ => none
  | _ => none

variable (A : Aead)

/-- `encode`; the nonce is drawn. -/
def encode (nonce : Nonce) (key : Str) (record : MappingRecord) : ByteArray :=
  nonce.bytes ++ A.encrypt nonce.bytes (utf8 ((document record).text .compact)) (utf8 key)

/-- `decode`; none where it raises. -/
def decode (key : Str) (blob : ByteArray) : Option MappingRecord := do
  let data ← A.decrypt (blob.extract 0 NONCE_SIZE) (blob.extract NONCE_SIZE blob.size) (utf8 key)
  record? (← loads (← utf8Decode data))

/-! ### Round trip -/

theorem itemsJson_fragments (fragments : List (Str × Str)) :
    itemsJson (fragments.map (fun f => .array [.string f.1, .string f.2])) =
      fragments.map (fun f => Json.array [.string f.1, .string f.2]) := by
  induction fragments with
  | nil => rfl
  | cons f fragments ih =>
    rw [List.map_cons, List.map_cons, itemsJson, ih]
    rfl

theorem mapM_pair? (fragments : List (Str × Str)) :
    (fragments.map (fun f => Json.array [.string f.1, .string f.2])).mapM pair? = some fragments := by
  induction fragments with
  | nil => rfl
  | cons f fragments ih =>
    rw [List.map_cons, List.mapM_cons, ih]
    rfl

theorem record?_document (record : MappingRecord) : record? (document record).toJson = some record := by
  show record? (.object [(['o'], .string record.original), (['m'], .string record.masked),
    (['f'], .array (itemsJson (record.fragments.map (fun f => .array [.string f.1, .string f.2]))))]) = some record
  rw [itemsJson_fragments]
  show ((record.fragments.map (fun f => Json.array [.string f.1, .string f.2])).mapM pair?).bind _ = some record
  rw [mapM_pair?]
  rfl

/-- The blob is the nonce and what was encrypted under it. -/
theorem nonce_append (nonce : Nonce) (data : ByteArray) :
    (nonce.bytes ++ data).extract 0 NONCE_SIZE = nonce.bytes ∧
      (nonce.bytes ++ data).extract NONCE_SIZE (nonce.bytes ++ data).size = data := by
  refine ⟨?_, ?_⟩
  · exact ByteArray.extract_append_eq_left nonce.size_eq.symm
  · exact ByteArray.extract_append_eq_right nonce.size_eq.symm ByteArray.size_append

/-- **A stored record is read back as it was**, whatever its texts, its id and the nonce are. -/
theorem decode_encode (nonce : Nonce) (key : Str) (record : MappingRecord) :
    decode A key (encode A nonce key record) = some record := by
  obtain ⟨hnonce, hdata⟩ := nonce_append nonce
    (A.encrypt nonce.bytes (utf8 ((document record).text .compact)) (utf8 key))
  unfold decode encode
  rw [hnonce, hdata, A.decrypt_encrypt]
  show (utf8Decode (utf8 ((document record).text .compact))).bind _ = _
  rw [utf8Decode_utf8]
  show (loads ((document record).text .compact)).bind record? = some record
  rw [loads_text]
  exact record?_document record

/-- **A blob determines its record**: it is read back under its id, and no other record, and no other nonce, makes the
same blob there. -/
theorem blob_determines_record (nonce : Nonce) (key : Str) (record : MappingRecord) :
    decode A key (encode A nonce key record) = some record ∧
      ∀ nonce' record', encode A nonce' key record' = encode A nonce key record →
        record' = record ∧ nonce'.bytes = nonce.bytes := by
  refine ⟨decode_encode A nonce key record, ?_⟩
  intro nonce' record' h
  have hrecord := decode_encode A nonce' key record'
  rw [h, decode_encode] at hrecord
  refine ⟨(Option.some.inj hrecord).symm, ?_⟩
  exact ByteArray.append_inj_left h (nonce'.size_eq.trans nonce.size_eq.symm)

/-- The codec as a store uses it; `raised` is what `decode` raises on a blob that it cannot read. -/
def recordCodec (raised : Str → ByteArray → PyExc) : RecordCodec ByteArray Nonce where
  encode := encode A
  decode key blob :=
    match decode A key blob with
    | none => .error (raised key blob)
    | some record => .ok record

theorem decode_recordCodec (raised : Str → ByteArray → PyExc) {key : Str} {blob : ByteArray} {record : MappingRecord} :
    (recordCodec A raised).decode key blob = .ok record ↔ decode A key blob = some record := by
  unfold recordCodec
  dsimp only
  cases decode A key blob with
  | none => simp
  | some record' => simp

theorem recordCodec_lossless (raised : Str → ByteArray → PyExc) : (recordCodec A raised).Lossless := by
  intro nonce key record
  exact (decode_recordCodec A raised).mpr (decode_encode A nonce key record)

end Codec

end PdMasking
