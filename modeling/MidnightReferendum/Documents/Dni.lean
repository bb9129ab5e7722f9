import MidnightReferendum.Js.Calendar
import MidnightReferendum.Relayer.Tokens

/-!
# The barcode of an Argentine document

`dni.ts`: the fields of the barcode are found by the place of the first date, and the document's number and copy are
hashed with the salt of an event to a tag that is to be unique to the document.
-/

namespace MidnightReferendum.Documents.Dni

open Js Relayer

inductive DniSex where
  | M
  | F
  | X
  deriving DecidableEq

structure DniDocument where
  surname : JsString
  givenNames : JsString
  sex : DniSex
  documentNumber : JsString
  copy : JsString
  birthDate : JsString
  issueDate : JsString
  deriving DecidableEq

inductive DniParseFailure where
  | notADniPayload
  | unknownLayout
  | invalidDocumentNumber
  | invalidSex
  | invalidDate
  | invalidCopy
  deriving DecidableEq

/-! ## Fields -/

/-- `/^\d{7,8}$/` -/
def isDocumentNumber (value : JsString) : Bool :=
  (value.length == 7 || value.length == 8) && value.all isDecimalDigit

/-- `/^[A-Z]$/` -/
def isCopy (value : JsString) : Bool := value.length == 1 && value.all fun u ↦ 0x41 ≤ u && u ≤ 0x5A

/-- `/^(\d{2})\/(\d{2})\/(\d{4})$/` -/
def isDate (value : JsString) : Bool :=
  value.length == 10 && (value.take 2).all isDecimalDigit && value[2]? == some 0x2F &&
    ((value.drop 3).take 2).all isDecimalDigit && value[5]? == some 0x2F && (value.drop 6).all isDecimalDigit

def normaliseSex (value : JsString) : Option DniSex :=
  let text := trimmed value
  if text = js "M" ∨ text = js "m" then some .M
  else if text = js "F" ∨ text = js "f" then some .F
  else if text = js "X" ∨ text = js "x" then some .X
  else none

/-- `parseDniDate`, which rejects a date that the calendar does not have -/
def parseDniDate (value : JsString) : Option ℤ :=
  let text := trimmed value
  if isDate text then
    let day := numeral (text.take 2)
    let month := numeral ((text.drop 3).take 2)
    let year := numeral (text.drop 6)
    (dateUTC year (month - 1) day).filter fun date ↦
      (utcDate date).year = year ∧ (utcDate date).month = month ∧ (utcDate date).day = day
  else none

/-- `value.split(separator)` -/
def splitAtUnit (separator : UInt16) : JsString → List JsString
  | [] => [[]]
  | u :: rest =>
    if u = separator then [] :: splitAtUnit separator rest
    else
      match splitAtUnit separator rest with
      | [] => [[u]]
      | field :: fields => (u :: field) :: fields

/-! ## Barcodes -/

def parseDniBarcode (payload : JsString) : Except DniParseFailure DniDocument :=
  let raw := trimmed payload
  if !raw.contains 0x40 then .error .notADniPayload
  else
    let fields := (splitAtUnit 0x40 raw).map trimmed
    if fields.length < 8 then .error .unknownLayout
    else
      match fields.findIdx? isDate with
      | none => .error .unknownLayout
      | some birthIndex =>
        if birthIndex < 5 ∨ !isDate (fields.getD (birthIndex + 1) []) then .error .unknownLayout
        else
          let surname := fields.getD (birthIndex - 5) []
          let givenNames := fields.getD (birthIndex - 4) []
          let documentNumber := fields.getD (birthIndex - 2) []
          let copy := fields.getD (birthIndex - 1) []
          let birthDate := fields.getD birthIndex []
          let issueDate := fields.getD (birthIndex + 1) []
          if !isDocumentNumber documentNumber then .error .invalidDocumentNumber
          else
            match normaliseSex (fields.getD (birthIndex - 3) []) with
            | none => .error .invalidSex
            | some sex =>
              if !isCopy copy then .error .invalidCopy
              else if surname = [] ∨ givenNames = [] then .error .unknownLayout
              else if (parseDniDate birthDate).isNone ∨ (parseDniDate issueDate).isNone then .error .invalidDate
              else .ok { surname, givenNames, sex, documentNumber, copy, birthDate, issueDate }

/-! ## Tags -/

/-- The text that is hashed. -/
def tagMaterial (document : DniDocument) (eventSalt : JsString) : JsString :=
  js "referendum:uniqueness:" ++ (eventSalt ++ (js ":" ++ (document.documentNumber ++ (js ":" ++ document.copy))))

def uniquenessTag (sha256 : List UInt8 → List UInt8) (document : DniDocument) (eventSalt : JsString) : JsString :=
  bytesToHex (sha256 (encodeUtf8 (tagMaterial document eventSalt)))

/-- The tags of two documents in one event, and of one document in two events. -/
structure TagsPerPerson (sha256 : List UInt8 → List UInt8) (document document' : DniDocument)
    (eventSalt eventSalt' : JsString) : Prop where
  same : document.documentNumber = document'.documentNumber →
    uniquenessTag sha256 document eventSalt = uniquenessTag sha256 document' eventSalt
  different : numeral document.documentNumber ≠ numeral document'.documentNumber →
    uniquenessTag sha256 document eventSalt ≠ uniquenessTag sha256 document' eventSalt
  events : eventSalt ≠ eventSalt' →
    uniquenessTag sha256 document eventSalt ≠ uniquenessTag sha256 document eventSalt'

/-! ## Accepted barcodes -/

/-- The number and the copy of an accepted barcode have the form that the parser asks for. -/
theorem fields_of_parse {payload : JsString} {document : DniDocument} (h : parseDniBarcode payload = .ok document) :
    isDocumentNumber document.documentNumber ∧ isCopy document.copy := by
  unfold parseDniBarcode at h
  simp only at h
  split at h
  · cases h
  split at h
  · cases h
  split at h
  · cases h
  split at h
  · cases h
  split at h
  · cases h
  rename_i hnumber
  split at h
  · cases h
  split at h
  · cases h
  rename_i hcopy
  split at h
  · cases h
  split at h
  · cases h
  rw [← Except.ok.inj h]
  rw [Bool.not_eq_true', Bool.not_eq_false] at hnumber hcopy
  exact ⟨hnumber, hcopy⟩

theorem isPlain_of_isDocumentNumber {number : JsString} (h : isDocumentNumber number) : IsPlain number := by
  rw [isDocumentNumber, Bool.and_eq_true, List.all_eq_true] at h
  exact isPlain_of_digits h.2

theorem isPlain_of_isCopy {copy : JsString} (h : isCopy copy) : IsPlain copy := by
  rw [isCopy, Bool.and_eq_true, List.all_eq_true] at h
  intro u hu
  have hletter := h.2 u hu
  have hle : u.toNat ≤ 0x5A := by
    rw [Bool.and_eq_true, decide_eq_true_eq, decide_eq_true_eq] at hletter
    exact hletter.2
  have hbelow : ¬(0xD800 : UInt16) ≤ u := by
    rw [UInt16.le_iff_toNat_le]
    exact fun h ↦ absurd (h.trans hle) (by decide)
  rw [isSurrogate, decide_eq_false hbelow, Bool.false_and]

/-! ## Hashed texts -/

/-- What follows the salt in the text that is hashed. -/
def tagSuffix (document : DniDocument) : JsString := js ":" ++ (document.documentNumber ++ (js ":" ++ document.copy))

/-- Each field has a text of its own in the suffix: a copy is one letter. -/
theorem tagSuffix_inj {document document' : DniDocument} (hcopy : isCopy document.copy) (hcopy' : isCopy document'.copy)
    (h : tagSuffix document = tagSuffix document') :
    document.documentNumber = document'.documentNumber ∧ document.copy = document'.copy := by
  rw [isCopy, Bool.and_eq_true, beq_iff_eq] at hcopy hcopy'
  have hfields := List.append_cancel_left h
  have hlength : (js ":" ++ document.copy).length = (js ":" ++ document'.copy).length := by
    rw [List.length_append, List.length_append, hcopy.1, hcopy'.1]
  have hparts := List.append_inj' hfields hlength
  exact ⟨hparts.1, List.append_cancel_left hparts.2⟩

theorem isPlain_tagSuffix {document : DniDocument} (hnumber : isDocumentNumber document.documentNumber)
    (hcopy : isCopy document.copy) : IsPlain (tagSuffix document) := by
  have hcolon : IsPlain (js ":") := by decide
  intro u hu
  rw [tagSuffix, List.mem_append, List.mem_append, List.mem_append] at hu
  rcases hu with hu | hu | hu | hu
  · exact hcolon u hu
  · exact isPlain_of_isDocumentNumber hnumber u hu
  · exact hcolon u hu
  · exact isPlain_of_isCopy hcopy u hu

/-- The bytes of the text: the salt keeps its own between those of the fixed parts. -/
theorem encodeUtf8_tagMaterial (document : DniDocument) (eventSalt : JsString) :
    encodeUtf8 (tagMaterial document eventSalt) =
      encodeUtf8 (js "referendum:uniqueness:") ++ (encodeUtf8 eventSalt ++ encodeUtf8 (tagSuffix document)) := by
  have hcolon : ∀ v ∈ (tagSuffix document).head?, isLowSurrogate v = false := by
    intro v hv
    rw [← Option.some.inj hv]
    decide
  rw [← encodeUtf8_append_of_head eventSalt hcolon]
  exact encodeUtf8_append (by decide) _

/-- Two texts of one event have the same bytes exactly if number and copy are the same. -/
theorem encodeUtf8_tagMaterial_inj {document document' : DniDocument} {eventSalt : JsString}
    (hnumber : isDocumentNumber document.documentNumber) (hcopy : isCopy document.copy)
    (hnumber' : isDocumentNumber document'.documentNumber) (hcopy' : isCopy document'.copy)
    (h : encodeUtf8 (tagMaterial document eventSalt) = encodeUtf8 (tagMaterial document' eventSalt)) :
    document.documentNumber = document'.documentNumber ∧ document.copy = document'.copy := by
  rw [encodeUtf8_tagMaterial, encodeUtf8_tagMaterial] at h
  have hsuffix := List.append_cancel_left (List.append_cancel_left h)
  have hplain := isWellFormed_of_plain (isPlain_tagSuffix hnumber hcopy)
  have hplain' := isWellFormed_of_plain (isPlain_tagSuffix hnumber' hcopy')
  exact tagSuffix_inj hcopy hcopy' (encodeUtf8_injective hplain hplain' hsuffix)

/-- Two texts of one document have the same bytes exactly if the salts have. -/
theorem encodeUtf8_tagMaterial_salt (document : DniDocument) (eventSalt eventSalt' : JsString) :
    encodeUtf8 (tagMaterial document eventSalt) = encodeUtf8 (tagMaterial document eventSalt') ↔
      encodeUtf8 eventSalt = encodeUtf8 eventSalt' := by
  rw [encodeUtf8_tagMaterial, encodeUtf8_tagMaterial, List.append_cancel_left_eq, List.append_cancel_right_eq]

/-! ## One tag per person -/

/-- The texts that the tags of `TagsPerPerson` are made from. -/
def tagTexts (document document' : DniDocument) (eventSalt eventSalt' : JsString) : List (List UInt8) :=
  [encodeUtf8 (tagMaterial document eventSalt), encodeUtf8 (tagMaterial document' eventSalt),
    encodeUtf8 (tagMaterial document eventSalt')]

/-- Without a collision of SHA-256 on these texts, a document has one tag for each event exactly if no second copy of it
is read, and no two salts differ only in surrogates that stand alone. -/
theorem tags_per_person_iff {payload payload' : JsString} {document document' : DniDocument}
    (hread : parseDniBarcode payload = .ok document) (hread' : parseDniBarcode payload' = .ok document')
    {sha256 : List UInt8 → List UInt8} {eventSalt eventSalt' : JsString}
    (hsha : Set.InjOn sha256 {text | text ∈ tagTexts document document' eventSalt eventSalt'}) :
    TagsPerPerson sha256 document document' eventSalt eventSalt' ↔
      (document.documentNumber = document'.documentNumber → document.copy = document'.copy) ∧
        (eventSalt ≠ eventSalt' → encodeUtf8 eventSalt ≠ encodeUtf8 eventSalt') := by
  have hfields := fields_of_parse hread
  have hfields' := fields_of_parse hread'
  have hfirst : encodeUtf8 (tagMaterial document eventSalt) ∈ tagTexts document document' eventSalt eventSalt' :=
    List.mem_cons_self
  have hsecond : encodeUtf8 (tagMaterial document' eventSalt) ∈ tagTexts document document' eventSalt eventSalt' :=
    List.mem_cons_of_mem _ List.mem_cons_self
  have hthird : encodeUtf8 (tagMaterial document eventSalt') ∈ tagTexts document document' eventSalt eventSalt' :=
    List.mem_cons_of_mem _ (List.mem_cons_of_mem _ List.mem_cons_self)
  have hpair : uniquenessTag sha256 document eventSalt = uniquenessTag sha256 document' eventSalt →
      document.documentNumber = document'.documentNumber ∧ document.copy = document'.copy := by
    intro htag
    have hbytes := hsha hfirst hsecond (bytesToHex_injective htag)
    exact encodeUtf8_tagMaterial_inj hfields.1 hfields.2 hfields'.1 hfields'.2 hbytes
  have hevent : uniquenessTag sha256 document eventSalt = uniquenessTag sha256 document eventSalt' ↔
      encodeUtf8 eventSalt = encodeUtf8 eventSalt' := by
    rw [← encodeUtf8_tagMaterial_salt document]
    constructor
    · intro htag
      exact hsha hfirst hthird (bytesToHex_injective htag)
    · intro hbytes
      exact congrArg (fun bytes ↦ bytesToHex (sha256 bytes)) hbytes
  constructor
  · intro h
    exact ⟨fun hnumber ↦ (hpair (h.same hnumber)).2, fun hsalt hbytes ↦ h.events hsalt (hevent.mpr hbytes)⟩
  · intro h
    exact {
      same := by
        intro hnumber
        rw [uniquenessTag, uniquenessTag, tagMaterial, tagMaterial, hnumber, h.1 hnumber]
      different := fun hnumber htag ↦ hnumber (congrArg numeral (hpair htag).1)
      events := fun hsalt htag ↦ h.2 hsalt (hevent.mp htag) }

/-- A card, the same card reissued, and the card of another person. -/
def specimenCard : DniDocument :=
  ⟨js "PEREZ GOMEZ", js "MARIA LAURA", .F, js "30123456", js "A", js "14/03/1994", js "22/06/2019"⟩

def reissuedCard : DniDocument := { specimenCard with copy := js "B", issueDate := js "03/02/2024" }

def otherCard : DniDocument := { specimenCard with surname := js "LOPEZ", documentNumber := js "30123457" }

/-- SHA-256 on the texts of these cards. -/
def specimenDigests : List (JsString × ℕ) :=
  [(js "referendum:uniqueness:energia-renovable:30123456:A",
      0xc852db0869a759c306e6e424f13ae95be25dabbfd49927ca78925c904ff7f4d5),
    (js "referendum:uniqueness:energia-renovable:30123456:B",
      0xd24be38031caa3069c8a28e4d55c4b019a2cd638703d465ef5f86f45afb275ee),
    (js "referendum:uniqueness:energia-renovable:30123457:A",
      0x2ea18c8eb8715161b6bb0116b3343402261c60997b759ffb7129c1ea0fd443f8),
    (js "referendum:uniqueness:transporte-publico:30123456:A",
      0xe09317783c83477fcba92789862e1b10374ff70a85e62892f47e4e0d9c3bf796)]

def specimenSha256 (text : List UInt8) : List UInt8 :=
  match specimenDigests.find? fun entry ↦ encodeUtf8 entry.1 == text with
  | none => []
  | some entry => (List.range 32).map fun i ↦ (entry.2 / 0x100 ^ (31 - i)).toUInt8

/-- Two persons have two tags in one event, and one person has two tags in two events. -/
theorem tags_per_person_iff_specimen :
    TagsPerPerson specimenSha256 specimenCard otherCard (js "energia-renovable") (js "transporte-publico") := by
  have hread : parseDniBarcode (js "00123456789@PEREZ GOMEZ@MARIA LAURA@F@30123456@A@14/03/1994@22/06/2019@000") =
      .ok specimenCard := by decide +kernel
  have hother : parseDniBarcode (js "00123456789@LOPEZ@MARIA LAURA@F@30123457@A@14/03/1994@22/06/2019") =
      .ok otherCard := by decide +kernel
  have hnodup : ((tagTexts specimenCard otherCard (js "energia-renovable") (js "transporte-publico")).map
      specimenSha256).Nodup := by decide +kernel
  exact (tags_per_person_iff hread hother (List.inj_on_of_nodup_map hnodup)).mpr ⟨by decide, by decide +kernel⟩

/-- The reissued card of the specimen has a tag of its own in the same event. -/
theorem reissued_card_votes_twice :
    parseDniBarcode (js "00123456789@PEREZ GOMEZ@MARIA LAURA@F@30123456@A@14/03/1994@22/06/2019@000") =
        .ok specimenCard ∧
      parseDniBarcode (js "00123456790@PEREZ GOMEZ@MARIA LAURA@F@30123456@B@14/03/1994@03/02/2024@000") =
        .ok reissuedCard ∧
      specimenCard.documentNumber = reissuedCard.documentNumber ∧
      uniquenessTag specimenSha256 specimenCard (js "energia-renovable") ≠
        uniquenessTag specimenSha256 reissuedCard (js "energia-renovable") ∧
      ¬TagsPerPerson specimenSha256 specimenCard reissuedCard (js "energia-renovable") (js "transporte-publico") := by
  have htags : uniquenessTag specimenSha256 specimenCard (js "energia-renovable") ≠
      uniquenessTag specimenSha256 reissuedCard (js "energia-renovable") := by decide +kernel
  exact ⟨by decide +kernel, by decide +kernel, rfl, htags, fun h ↦ htags (h.same rfl)⟩

end MidnightReferendum.Documents.Dni
