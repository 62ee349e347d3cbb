import DuckdbSalesforce.Json.Lookup
import DuckdbSalesforce.Soql.Expression

/-!
# Decoding a field (`salesforce_value.cpp`)

From the text of a record, or of a cell, to a typed value. The casts are
DuckDB's own; what the extension adds is the base64 decoder and the removal of
time zone designators.
-/

namespace DuckdbSalesforce
open JsonText

/-! ### Base64 -/

def base64Alphabet : Text :=
  "ABCDEFGHIJKLMNOPQRSTUVWXYZabcdefghijklmnopqrstuvwxyz0123456789+/".toList

/-- `out`, `val` and `bits` of the loop. -/
structure Base64State where
  out : Text
  val : BitVec 32
  bits : ℤ

def base64Start : Base64State := ⟨[], 0, -8⟩

/-- One character that is in the table at `d`. -/
def base64Step (s : Base64State) (d : ℕ) : Base64State :=
  let val := (s.val <<< 6) + BitVec.ofNat 32 d
  let bits := s.bits + 6
  if 0 ≤ bits then
    ⟨s.out ++ [Char.ofNat ((val.sshiftRight bits.toNat) &&& 255#32).toNat], val, bits - 8⟩
  else ⟨s.out, val, bits⟩

def isBase64Skipped (c : Char) : Bool := c == '=' || c == '\n' || c == '\r' || c == ' '

def base64Loop (s : Base64State) : Text → Option Base64State
  | [] => some s
  | c :: t =>
    if isBase64Skipped c then base64Loop s t
    else match base64Alphabet.idxOf? c with
      | none => none
      | some d => base64Loop (base64Step s d) t

/-- `none` where the C++ throws. -/
def decodeBase64 (t : Text) : Option Text := (base64Loop base64Start t).map Base64State.out

/-! ### Dates and times -/

def isZoneMark (c : Char) : Bool := c == 'Z' || c == 'z' || c == '+'

/-- Cut at the first of `Zz+`, else at the first `-`. -/
def stripZone (s : Text) : Text :=
  if s.any isZoneMark then s.takeWhile fun c => !isZoneMark c else s.takeWhile fun c => c != '-'

def normalizeTime (s : Text) : Text := stripZone s

def normalizeDateTime (s : Text) : Text :=
  match s.dropWhile fun c => c != 'T' with
  | [] => s
  | _ :: rest => (s.takeWhile fun c => c != 'T') ++ ' ' :: stripZone rest

/-! ### Cells -/

/-- What the decoders ask DuckDB for: its cast of a text, where `none` throws,
and the name of a type. -/
structure CastFunctions where
  defaultCastAs : LogicalType → Text → Option Value
  typeText : LogicalType → Text

inductive DecodedCell where
  | null
  | value (v : Value)
  | blob (bytes : Text)
  | struct (entries : List DecodedCell)

def isBlobUrlReference (raw : Text) : Bool :=
  raw.head? == some '/' || (4 ≤ raw.length && lower (raw.take 4) == "http".toList)

def blobReferenceError (field : SalesforceField) : Text :=
  "salesforce: Salesforce returned a URL reference for blob/base64 field '".toList ++ field.name ++
    ("'; inline BLOB decoding is not supported by REST query. Select non-blob fields or fetch the " ++
      "blob URL outside the scanner.").toList

/-- Field and types, and for a blob its length: never the value. -/
def decodeError (field : SalesforceField) (target : Text) : Text :=
  "salesforce: field '".toList ++ field.name ++ "' (Salesforce type '".toList ++ field.sfType ++
    "') could not be decoded as ".toList ++ target ++ ".".toList

def castSource : LogicalType → Text → Text
  | .timestamp, raw => normalizeDateTime raw
  | .time, raw => normalizeTime raw
  | _, raw => raw

section Decode
variable (casts : CastFunctions)

def appendTypedCell (field : SalesforceField) (raw : Text) : Except Text DecodedCell :=
  match field.duckdbType with
  | .varchar => .ok (.value (.varchar raw))
  | .blob =>
    match decodeBase64 raw with
    | some bytes => .ok (.blob bytes)
    | none =>
      if isBlobUrlReference raw then .error (blobReferenceError field)
      else .error (decodeError field ("BLOB (length=".toList ++ natText raw.length ++ ")".toList))
  | type =>
    match casts.defaultCastAs type (castSource type raw) with
    | some v => .ok (.value v)
    | none => .error (decodeError field (casts.typeText type))

/-- The parent's object; a NULL parent has NULL entries. -/
def appendRelationshipStruct (appendEntries : Text → Except Text (List DecodedCell))
    (relationshipName record : Text) : Except Text DecodedCell :=
  let nested := extractObject record relationshipName
  if nested = [] then .ok .null else (appendEntries nested).map .struct

/-- A member that is not a parent's object. -/
def appendMember (field : SalesforceField) (record : Text) : Except Text DecodedCell :=
  let read := getValue record field.name
  if !read.found || read.isNull then .ok .null else appendTypedCell casts field read.out

mutual
def appendJsonValue : SalesforceField → Text → Except Text DecodedCell
  | ⟨name, sfType, type, filterable, sortable, relationshipName, isRelationship, children⟩, record =>
    if isRelationship then
      appendRelationshipStruct (fun nested => appendEntries children nested) relationshipName record
    else appendMember casts ⟨name, sfType, type, filterable, sortable, relationshipName,
      isRelationship, children⟩ record

def appendEntries : List SalesforceField → Text → Except Text (List DecodedCell)
  | [], _ => .ok []
  | c :: cs, nested =>
    match appendJsonValue c nested with
    | .error e => .error e
    | .ok cell => (appendEntries cs nested).map (cell :: ·)
end

theorem appendJsonValue_flat (field : SalesforceField) (record : Text)
    (h : field.isRelationship = false) :
    appendJsonValue casts field record = appendMember casts field record := by
  obtain ⟨name, sfType, type, filterable, sortable, relationshipName, isRelationship, children⟩ :=
    field
  have hrel : isRelationship = false := h
  subst hrel
  rfl

end Decode

/-! ### Values that are read back -/

def isDateChar (c : Char) : Bool := c.isDigit || c == '-'
def isClockChar (c : Char) : Bool := c.isDigit || c == ':' || c == '.'

/-- The characters of dates, times and zone designators. -/
def isStampChar (c : Char) : Bool := c.isDigit || c ∈ ['-', ':', '.', '+', 'T', 'Z']

/-- The types whose texts are cast as they are. -/
def castsUnchanged : LogicalType → Bool
  | .varchar | .blob | .time | .timestamp => false
  | _ => true

def stampText (t : Text) : Json := .string (spell t)

/-- A JSON scalar and the value it is cast to. A time ends with `Z`, a datetime
has a `T` and ends with the offset `+0000`. -/
inductive Spells (casts : CastFunctions) : LogicalType → Value → Json → Prop where
  | boolean (v : Value) (b : Bool) (cast : casts.defaultCastAs .boolean (boolText b) = some v) :
      Spells casts .boolean v (.bool b)
  | number (type : LogicalType) (v : Value) (n : JsonNumber) (plain : castsUnchanged type = true)
      (cast : casts.defaultCastAs type n.render = some v) : Spells casts type v (.number n)
  | stamp (type : LogicalType) (v : Value) (t : Text) (plain : castsUnchanged type = true)
      (chars : ∀ c ∈ t, isStampChar c = true) (cast : casts.defaultCastAs type t = some v) :
      Spells casts type v (stampText t)
  | time (v : Value) (clock : Text) (chars : ∀ c ∈ clock, isClockChar c = true)
      (cast : casts.defaultCastAs .time clock = some v) :
      Spells casts .time v (stampText (clock ++ ['Z']))
  | timestamp (v : Value) (date clock : Text) (dateChars : ∀ c ∈ date, isDateChar c = true)
      (clockChars : ∀ c ∈ clock, isClockChar c = true)
      (cast : casts.defaultCastAs .timestamp (date ++ ' ' :: clock) = some v) :
      Spells casts .timestamp v (stampText (date ++ 'T' :: (clock ++ "+0000".toList)))

theorem digit_stamp (c : Char) (h : c.isDigit = true) : isStampChar c = true := by
  rw [isStampChar, h, Bool.true_or]

theorem clock_stamp (c : Char) (h : isClockChar c = true) : isStampChar c = true := by
  simp only [isClockChar, Bool.or_eq_true, beq_iff_eq] at h
  rcases h with (h | rfl) | rfl
  · exact digit_stamp c h
  · rfl
  · rfl

theorem date_stamp (c : Char) (h : isDateChar c = true) : isStampChar c = true := by
  simp only [isDateChar, Bool.or_eq_true, beq_iff_eq] at h
  rcases h with h | rfl
  · exact digit_stamp c h
  · rfl

theorem time_stamp (clock : Text) (h : ∀ c ∈ clock, isClockChar c = true) :
    ∀ c ∈ clock ++ ['Z'], isStampChar c = true := by
  intro c hc
  rcases List.mem_append.mp hc with hc | hc
  · exact clock_stamp c (h c hc)
  · rw [List.mem_singleton.mp hc]
    rfl

theorem dateTime_stamp (date clock : Text) (hdate : ∀ c ∈ date, isDateChar c = true)
    (hclock : ∀ c ∈ clock, isClockChar c = true) :
    ∀ c ∈ date ++ 'T' :: (clock ++ "+0000".toList), isStampChar c = true := by
  have hzone : "+0000".toList.all isStampChar = true := rfl
  intro c hc
  rcases List.mem_append.mp hc with hc | hc
  · exact date_stamp c (hdate c hc)
  · rcases List.mem_cons.mp hc with rfl | hc
    · rfl
    · rcases List.mem_append.mp hc with hc | hc
      · exact clock_stamp c (hclock c hc)
      · exact List.all_eq_true.mp hzone c hc

theorem stamp_plain (c : Char) (h : isStampChar c = true) : c ≠ '"' ∧ c ≠ '\\' := by
  constructor
  · intro heq
    subst heq
    exact absurd h (by decide)
  · intro heq
    subst heq
    exact absurd h (by decide)

theorem clock_unmarked (c : Char) (h : isClockChar c = true) : isZoneMark c = false := by
  simp only [isClockChar, Bool.or_eq_true, beq_iff_eq] at h
  rcases h with (h | rfl) | rfl
  · have hupper := digit_ne c 'Z' rfl h
    have hlower := digit_ne c 'z' rfl h
    have hplus := digit_ne c '+' rfl h
    simp [isZoneMark, hupper, hlower, hplus]
  · rfl
  · rfl

theorem stripZone_clock (clock zone : Text) (mark : Char) (hmark : isZoneMark mark = true)
    (hclock : ∀ c ∈ clock, isClockChar c = true) : stripZone (clock ++ mark :: zone) = clock := by
  have hany : (clock ++ mark :: zone).any isZoneMark = true := by
    simp [hmark]
  unfold stripZone
  rw [if_pos hany, List.takeWhile_append_of_pos fun c hc => by rw [clock_unmarked c (hclock c hc)]; rfl,
    List.takeWhile_cons, hmark]
  simp

theorem normalizeDateTime_utc (date clock : Text) (hdate : ∀ c ∈ date, isDateChar c = true)
    (hclock : ∀ c ∈ clock, isClockChar c = true) :
    normalizeDateTime (date ++ 'T' :: (clock ++ "+0000".toList)) = date ++ ' ' :: clock := by
  have hnot : ∀ c ∈ date, (c != 'T') = true := by
    intro c hc
    have hd := hdate c hc
    rw [bne_iff_ne]
    intro heq
    subst heq
    exact absurd hd (by decide)
  have hstrip := stripZone_clock clock "0000".toList '+' rfl hclock
  unfold normalizeDateTime
  rw [List.dropWhile_append_of_pos hnot, List.takeWhile_append_of_pos hnot]
  show date ++ [] ++ ' ' :: stripZone (clock ++ '+' :: "0000".toList) = _
  rw [hstrip, List.append_nil]

theorem readValue_stamp (t : Text) (h : ∀ c ∈ t, isStampChar c = true) :
    readValue (stampText t) = ⟨t, true, false⟩ := by
  have hread : readItems (spell t) = t := by
    induction t with
    | nil => rfl
    | cons c t ih =>
      have hrest := ih fun d hd => h d (List.mem_cons_of_mem _ hd)
      have hc := stamp_plain c (h c List.mem_cons_self)
      unfold spell at hrest ⊢
      rw [List.map_cons, dif_pos hc]
      show c :: readItems _ = _
      rw [hrest]
  rw [stampText, readValue, hread]

theorem castSource_unchanged (type : LogicalType) (raw : Text) (h : castsUnchanged type = true) :
    castSource type raw = raw := by
  cases type <;> first | rfl | cases h

theorem appendTypedCell_cast (casts : CastFunctions) (field : SalesforceField) (raw : Text)
    (v : Value) (htype : field.duckdbType ≠ .varchar ∧ field.duckdbType ≠ .blob)
    (h : casts.defaultCastAs field.duckdbType (castSource field.duckdbType raw) = some v) :
    appendTypedCell casts field raw = .ok (.value v) := by
  unfold appendTypedCell
  split
  · rename_i hvarchar
    exact absurd hvarchar htype.1
  · rename_i hblob
    exact absurd hblob htype.2
  · rw [h]

theorem castsUnchanged_type (type : LogicalType) (h : castsUnchanged type = true) :
    type ≠ .varchar ∧ type ≠ .blob := by
  constructor
  · intro heq
    subst heq
    cases h
  · intro heq
    subst heq
    cases h

/-- A spelled value comes back from the reader and the cast. -/
theorem spells_read (casts : CastFunctions) (field : SalesforceField) (v : Value) (json : Json)
    (h : Spells casts field.duckdbType v json) :
    (readValue json).found = true ∧ (readValue json).isNull = false ∧
      appendTypedCell casts field (readValue json).out = .ok (.value v) := by
  have hplain : ∀ raw, castsUnchanged field.duckdbType = true →
      casts.defaultCastAs field.duckdbType raw = some v →
        appendTypedCell casts field raw = .ok (.value v) := by
    intro raw hunchanged hcast
    refine appendTypedCell_cast casts field raw v (castsUnchanged_type _ hunchanged) ?_
    rw [castSource_unchanged _ raw hunchanged]
    exact hcast
  generalize htype : field.duckdbType = type at h hplain
  cases h with
  | boolean _ b cast => exact ⟨rfl, rfl, hplain _ rfl cast⟩
  | number _ _ n plain cast => exact ⟨rfl, rfl, hplain _ plain cast⟩
  | stamp _ _ t plain chars cast =>
    rw [readValue_stamp t chars]
    exact ⟨rfl, rfl, hplain _ plain cast⟩
  | time _ clock chars cast =>
    have hread := readValue_stamp _ (time_stamp clock chars)
    have hclock : castSource .time (clock ++ ['Z']) = clock := stripZone_clock clock [] 'Z' rfl chars
    rw [hread]
    refine ⟨rfl, rfl, appendTypedCell_cast casts field _ v ?_ ?_⟩
    · rw [htype]
      decide
    · rw [htype, hclock]
      exact cast
  | timestamp _ date clock dateChars clockChars cast =>
    have hread := readValue_stamp _ (dateTime_stamp date clock dateChars clockChars)
    have hsource : castSource .timestamp (date ++ 'T' :: (clock ++ "+0000".toList)) =
        date ++ ' ' :: clock := normalizeDateTime_utc date clock dateChars clockChars
    rw [hread]
    refine ⟨rfl, rfl, appendTypedCell_cast casts field _ v ?_ ?_⟩
    · rw [htype]
      decide
    · rw [htype, hsource]
      exact cast

end DuckdbSalesforce
