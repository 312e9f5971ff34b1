import KernelSU.App.SulogHelper
import KernelSU.Ksud.Sulog

/-!
# A log line is read back as it was written
-/

namespace KernelSU.App

open KernelSU.Lib KernelSU.Ksud

/-! ### Quoted values -/

theorem parseQuotedSulogValue_plain {ch : UInt16} (hquote : ch ≠ unit '"') (hslash : ch ≠ unit '\\')
    (rest value : KString) :
    parseQuotedSulogValue (ch :: rest) value = parseQuotedSulogValue rest (value ++ [ch]) := by
  rw [parseQuotedSulogValue, if_neg hquote, if_neg hslash]

theorem parseQuotedSulogValue_slash (rest value : KString) :
    parseQuotedSulogValue (unit '\\' :: rest) value =
      parseQuotedSulogValue (appendEscapedSulogChar rest value).2
        (appendEscapedSulogChar rest value).1 := by
  rw [parseQuotedSulogValue, if_neg (by decide), if_pos rfl]

theorem parseQuotedSulogValue_units {units : KString}
    (hunits : ∀ u ∈ units, u ≠ unit '"' ∧ u ≠ unit '\\') (rest value : KString) :
    parseQuotedSulogValue (units ++ rest) value = parseQuotedSulogValue rest (value ++ units) := by
  induction units generalizing value with
  | nil => simp
  | cons u units ih =>
    have hu := hunits u List.mem_cons_self
    rw [List.cons_append, parseQuotedSulogValue_plain hu.1 hu.2,
      ih (fun v hv => hunits v (List.mem_cons_of_mem _ hv)), List.append_assoc, List.singleton_append]

/-- The escapes that stand for one character each. -/
def simpleEscapes : List (Char × Char) :=
  [('\\', '\\'), ('"', '"'), ('n', '\n'), ('r', '\r'), ('t', '\t')]

theorem appendEscapedSulogChar_simple {escaped ch : Char} (h : (escaped, ch) ∈ simpleEscapes)
    (rest value : KString) :
    appendEscapedSulogChar (unit escaped :: rest) value = (value ++ [unit ch], rest) := by
  simp only [simpleEscapes, List.mem_cons, Prod.mk.injEq, List.not_mem_nil, or_false] at h
  rcases h with ⟨rfl, rfl⟩ | ⟨rfl, rfl⟩ | ⟨rfl, rfl⟩ | ⟨rfl, rfl⟩ | ⟨rfl, rfl⟩ <;> rfl

theorem parseQuotedSulogValue_simple {escaped ch : Char} (h : (escaped, ch) ∈ simpleEscapes)
    (rest value : KString) :
    parseQuotedSulogValue (unit '\\' :: unit escaped :: rest) value =
      parseQuotedSulogValue rest (value ++ [unit ch]) := by
  rw [parseQuotedSulogValue_slash, appendEscapedSulogChar_simple h]

/-- The two digits of a control character, read as a number. -/
theorem toIntOrNull_hex02 :
    ∀ code < 0xA0, (encodeUtf16 (hex02 code)).length = 2 ∧
      toIntOrNull (encodeUtf16 (hex02 code)) 16 = some (code : ℤ) := by
  decide +kernel

theorem parseQuotedSulogValue_hex {code : ℕ} (hcode : code < 0xA0) (rest value : KString) :
    parseQuotedSulogValue (unit '\\' :: unit 'x' :: (encodeUtf16 (hex02 code) ++ rest)) value =
      parseQuotedSulogValue rest (value ++ [UInt16.ofNat code]) := by
  obtain ⟨hlen, hint⟩ := toIntOrNull_hex02 code hcode
  have htake : (encodeUtf16 (hex02 code) ++ rest).take 2 = encodeUtf16 (hex02 code) := by
    rw [← hlen, List.take_left]
  have hdrop : (encodeUtf16 (hex02 code) ++ rest).drop 2 = rest := by
    rw [← hlen, List.drop_left]
  have hchar : toChar (code : ℤ) = UInt16.ofNat code := by
    have hmod : ((code : ℤ) % 2 ^ 16).toNat = code := by omega
    rw [toChar, hmod]
  have hhex : appendHexEscapedSulogChar (encodeUtf16 (hex02 code) ++ rest) value =
      (value ++ [UInt16.ofNat code], rest) := by
    rw [appendHexEscapedSulogChar, if_pos (by rw [List.length_append]; omega), htake, hdrop, hint]
    simp only [hchar]
  have hx : appendEscapedSulogChar (unit 'x' :: (encodeUtf16 (hex02 code) ++ rest)) value =
      appendHexEscapedSulogChar (encodeUtf16 (hex02 code) ++ rest) value := by
    rw [appendEscapedSulogChar, if_neg (by decide), if_neg (by decide), if_neg (by decide),
      if_neg (by decide), if_neg (by decide), if_pos rfl]
  rw [parseQuotedSulogValue_slash, hx, hhex]

/-- **One character.**  What was pushed for a character is read back as its code units, whatever was read
before and whatever follows. -/
theorem parseQuotedSulogValue_escapeChar (ch : Char) (rest value : KString) :
    parseQuotedSulogValue (encodeUtf16 (escapeChar ch) ++ rest) value =
      parseQuotedSulogValue rest (value ++ encodeUtf16Char ch) := by
  by_cases hsimple : ∃ escaped, (escaped, ch) ∈ simpleEscapes
  · obtain ⟨escaped, h⟩ := hsimple
    have hpush : encodeUtf16 (escapeChar ch) = [unit '\\', unit escaped] ∧
        encodeUtf16Char ch = [unit ch] := by
      simp only [simpleEscapes, List.mem_cons, Prod.mk.injEq, List.not_mem_nil, or_false] at h
      rcases h with ⟨rfl, rfl⟩ | ⟨rfl, rfl⟩ | ⟨rfl, rfl⟩ | ⟨rfl, rfl⟩ | ⟨rfl, rfl⟩ <;> decide
    rw [hpush.1, hpush.2]
    exact parseQuotedSulogValue_simple h rest value
  · have hne : ∀ escaped, (escaped, ch) ∉ simpleEscapes := fun e he => hsimple ⟨e, he⟩
    have hslash : ch ≠ '\\' := fun h => hne '\\' (by rw [h]; decide)
    have hquote : ch ≠ '"' := fun h => hne '"' (by rw [h]; decide)
    have hn : ch ≠ '\n' := fun h => hne 'n' (by rw [h]; decide)
    have hr : ch ≠ '\r' := fun h => hne 'r' (by rw [h]; decide)
    have ht : ch ≠ '\t' := fun h => hne 't' (by rw [h]; decide)
    rw [escapeChar, if_neg hslash, if_neg hquote, if_neg hn, if_neg hr, if_neg ht]
    by_cases hcontrol : isControl ch = true
    · have hlt : ch.toNat < 0xA0 := by
        simp only [isControl, Bool.or_eq_true, Bool.and_eq_true, decide_eq_true_eq] at hcontrol
        omega
      have hunit : encodeUtf16Char ch = [UInt16.ofNat ch.toNat] := by
        rw [encodeUtf16Char, if_pos (by omega)]
      rw [if_pos hcontrol, hunit]
      exact parseQuotedSulogValue_hex hlt rest value
    · rw [if_neg hcontrol, encodeUtf16_cons, encodeUtf16_nil, List.append_nil]
      apply parseQuotedSulogValue_units
      intro u hu
      constructor
      · rintro rfl
        exact hquote (eq_of_ascii_mem (by decide) hu)
      · rintro rfl
        exact hslash (eq_of_ascii_mem (by decide) hu)

/-- What `escape_field` wrote between two quotes is read back, up to the closing quote. -/
theorem parseQuotedSulogValue_escapeField (s : Str) (rest value : KString) :
    parseQuotedSulogValue (encodeUtf16 (escapeField s) ++ unit '"' :: rest) value =
      (value ++ encodeUtf16 s, rest) := by
  induction s generalizing value with
  | nil => simp [escapeField, parseQuotedSulogValue]
  | cons ch s ih =>
    have hcons : escapeField (ch :: s) = escapeChar ch ++ escapeField s := rfl
    rw [hcons, encodeUtf16_append, List.append_assoc, parseQuotedSulogValue_escapeChar, ih,
      encodeUtf16_cons, List.append_assoc]

/-! ### One field -/

/-- The characters of keys and unquoted values. -/
def IsWord (s : Str) : Prop := ∀ c ∈ s, 0x21 ≤ c.toNat ∧ c.toNat < 0x7F ∧ c ≠ '=' ∧ c ≠ '"'

instance (s : Str) : Decidable (IsWord s) := List.decidableBAll _ s

theorem IsWord.units {s : Str} (h : IsWord s) {u : UInt16} (hu : u ∈ encodeUtf16 s) :
    isWhitespace u = false ∧ inKey u = true ∧ u ≠ unit '"' := by
  obtain ⟨c, hc, hu⟩ := List.mem_flatMap.mp hu
  obtain ⟨hlow, hhigh, heq, hquote⟩ := h c hc
  have hval : u = UInt16.ofNat c.toNat := by
    simpa [encodeUtf16Char_ascii (show c.toNat < 0x80 by omega)] using hu
  have hnat : u.toNat = c.toNat := by
    rw [hval, UInt16.toNat_ofNat', Nat.mod_eq_of_lt (by omega)]
  have hspace : isWhitespace u = false := by
    simp only [isWhitespace, hnat, Bool.or_eq_false_iff, Bool.and_eq_false_iff, decide_eq_false_iff_not]
    omega
  have hne : ∀ d : Char, d.toNat < 0x80 → c ≠ d → u ≠ unit d := by
    rintro d hd hcd rfl
    exact hcd (eq_of_ascii_mem hd hu)
  have hassign : u ≠ unit '=' := hne '=' (by decide) heq
  exact ⟨hspace, by simp [inKey, hspace, hassign], hne '"' (by decide) hquote⟩

theorem parseFields_nil {line : KString} (hline : line.dropWhile isWhitespace = [])
    (fields : FieldMap) : parseFields line fields = fields := by
  rw [parseFields]
  split
  · rfl
  · next first tail h => exact absurd (h.symm.trans hline) (by simp)

/-- A key up to its `=`, and then the value, are one turn of the loop. -/
theorem parseFields_assign {line key rest : KString}
    (hline : line.dropWhile isWhitespace = key ++ unit '=' :: rest)
    (hkey : ∀ u ∈ key, inKey u = true) (hne : key ≠ []) (fields : FieldMap) :
    parseFields line fields = parseFields (parseValue rest).2 (put fields key (parseValue rest).1) := by
  have heq : inKey (unit '=') = false := by decide
  have hdrop : (key ++ unit '=' :: rest).dropWhile inKey = unit '=' :: rest := by
    rw [List.dropWhile_append_of_pos hkey, List.dropWhile_cons_of_neg (by simp [heq])]
  have htake : (key ++ unit '=' :: rest).takeWhile inKey = key := by
    rw [List.takeWhile_append_of_pos hkey, List.takeWhile_cons_of_neg (by simp [heq]), List.append_nil]
  rw [parseFields]
  split
  · next h => exact absurd (h.symm.trans hline) (by simp)
  · next first tail h =>
    have hfirst : first :: tail = key ++ unit '=' :: rest := h.symm.trans hline
    split
    · next h' =>
      rw [hfirst, hdrop] at h'
      exact absurd h' (by simp)
    · next ch rest' h' =>
      rw [hfirst, hdrop] at h'
      obtain ⟨rfl, rfl⟩ := List.cons.inj h'
      rw [if_neg (not_not.mpr rfl), hfirst, htake, if_neg hne]

/-- A field of a log line, its value between quotes or not. -/
structure LineField where
  key : Str
  value : Str
  quoted : Bool

namespace LineField

/-- The field as it is written. -/
def text (field : LineField) : Str :=
  field.key ++ '=' ::
    (if field.quoted then '"' :: (escapeField field.value ++ ['"']) else field.value)

/-- A field that is read back: only a quoted value may be any text. -/
structure WellFormed (field : LineField) : Prop where
  key_isWord : IsWord field.key
  key_ne_nil : field.key ≠ []
  value_isWord : field.quoted = false → IsWord field.value

/-- The entry that the field becomes. -/
def entry (field : LineField) : KString × KString := (encodeUtf16 field.key, encodeUtf16 field.value)

end LineField

/-- What may follow a field: the end of the line or a blank. -/
def AtBlank (rest : KString) : Prop := ∀ u ∈ rest.head?, isWhitespace u = true

theorem parseUnquotedSulogValue_word {value : Str} (hvalue : IsWord value) {rest : KString}
    (hrest : AtBlank rest) :
    parseUnquotedSulogValue (encodeUtf16 value ++ rest) = (encodeUtf16 value, rest) := by
  have hunits : ∀ u ∈ encodeUtf16 value, (!isWhitespace u) = true := fun u hu => by
    rw [(hvalue.units hu).1]
    rfl
  rw [parseUnquotedSulogValue, List.takeWhile_append_of_pos hunits,
    List.dropWhile_append_of_pos hunits]
  cases rest with
  | nil => simp
  | cons u rest =>
    have hu : isWhitespace u = true := hrest u rfl
    simp [hu]

theorem parseValue_unquoted {value : Str} (hvalue : IsWord value) {rest : KString}
    (hrest : AtBlank rest) :
    parseValue (encodeUtf16 value ++ rest) = (encodeUtf16 value, rest) := by
  have hparse := parseUnquotedSulogValue_word hvalue hrest
  cases hline : encodeUtf16 value ++ rest with
  | nil => rw [parseValue, ← hline, hparse]
  | cons ch tail =>
    have hch : ch ≠ unit '"' := by
      cases hunits : encodeUtf16 value with
      | nil =>
        rw [hunits, List.nil_append] at hline
        rintro rfl
        exact absurd (hrest (unit '"') (by rw [hline]; rfl)) (by decide)
      | cons u us =>
        rw [hunits, List.cons_append] at hline
        have hhead : u = ch := (List.cons.inj hline).1
        exact hhead ▸ (hvalue.units (hunits ▸ List.mem_cons_self)).2.2
    rw [parseValue, if_neg hch, ← hline, hparse]

theorem parseValue_quoted (value : Str) (rest : KString) :
    parseValue (unit '"' :: (encodeUtf16 (escapeField value) ++ unit '"' :: rest)) =
      (encodeUtf16 value, rest) := by
  rw [parseValue, if_pos rfl, parseQuotedSulogValue_escapeField, List.nil_append]

/-- **One field.**  A field after any blanks becomes its entry, whatever follows it after another blank. -/
theorem parseFields_field {field : LineField} (hfield : field.WellFormed) {blanks rest : KString}
    (hblanks : ∀ u ∈ blanks, isWhitespace u = true) (hrest : AtBlank rest) (fields : FieldMap) :
    parseFields (blanks ++ (encodeUtf16 field.text ++ rest)) fields =
      parseFields rest (put fields field.entry.1 field.entry.2) := by
  have hkey : ∀ u ∈ encodeUtf16 field.key, inKey u = true :=
    fun u hu => (hfield.key_isWord.units hu).2.1
  have hne : encodeUtf16 field.key ≠ [] := encodeUtf16_ne_nil hfield.key_ne_nil
  have hvalue : ∃ line, encodeUtf16 field.text ++ rest =
      encodeUtf16 field.key ++ unit '=' :: line ∧ parseValue line = (encodeUtf16 field.value, rest) := by
    have heq : encodeUtf16Char '=' = [unit '='] := by decide
    have hquote : encodeUtf16Char '"' = [unit '"'] := by decide
    cases hquoted : field.quoted with
    | false =>
      refine ⟨encodeUtf16 field.value ++ rest, ?_,
        parseValue_unquoted (hfield.value_isWord hquoted) hrest⟩
      simp [LineField.text, hquoted, heq]
    | true =>
      refine ⟨unit '"' :: (encodeUtf16 (escapeField field.value) ++ unit '"' :: rest), ?_,
        parseValue_quoted field.value rest⟩
      simp [LineField.text, hquoted, heq, hquote]
  obtain ⟨line, htext, hparse⟩ := hvalue
  have hdrop : (blanks ++ (encodeUtf16 field.text ++ rest)).dropWhile isWhitespace =
      encodeUtf16 field.key ++ unit '=' :: line := by
    rw [List.dropWhile_append_of_pos hblanks, htext]
    obtain ⟨u, us, hunits⟩ := List.exists_cons_of_ne_nil hne
    have hu : isWhitespace u = false := (hfield.key_isWord.units (hunits ▸ List.mem_cons_self)).1
    rw [hunits, List.cons_append, List.dropWhile_cons_of_neg (by simp [hu])]
  rw [parseFields_assign hdrop hkey hne, hparse]
  rfl

/-! ### The whole line -/

/-- The fields of a line, each after a blank. -/
def lineText : List LineField → Str
  | [] => []
  | field :: fields => ' ' :: (field.text ++ lineText fields)

theorem atBlank_lineText (fields : List LineField) : AtBlank (encodeUtf16 (lineText fields)) := by
  cases fields with
  | nil => simp [AtBlank, lineText]
  | cons field fields =>
    intro u hu
    have hblank : encodeUtf16 (lineText (field :: fields)) =
        unit ' ' :: encodeUtf16 (field.text ++ lineText fields) := rfl
    rw [hblank] at hu
    obtain rfl : unit ' ' = u := by simpa using hu
    decide

theorem put_new {fields : FieldMap} {key : KString} (h : key ∉ fields.map Prod.fst) (value : KString) :
    put fields key value = fields ++ [(key, value)] := by
  rw [put, if_neg h]

/-- **Every field, in order.**  A line of well-formed fields with new and distinct keys adds exactly these
fields. -/
theorem parseFields_lineText {fields : List LineField} (hfields : ∀ f ∈ fields, f.WellFormed)
    {before : FieldMap} (hkeys : (before.map Prod.fst ++ fields.map (·.entry.1)).Nodup) :
    parseFields (encodeUtf16 (lineText fields)) before = before ++ fields.map LineField.entry := by
  induction fields generalizing before with
  | nil =>
    rw [lineText, encodeUtf16_nil, parseFields_nil List.dropWhile_nil, List.map_nil, List.append_nil]
  | cons field fields ih =>
    have hblank : encodeUtf16 (lineText (field :: fields)) =
        [unit ' '] ++ (encodeUtf16 field.text ++ encodeUtf16 (lineText fields)) := by
      rw [lineText, encodeUtf16_cons, encodeUtf16_append]
      rfl
    have hnew : field.entry.1 ∉ before.map Prod.fst := fun hmem =>
      (List.nodup_append.mp hkeys).2.2 _ hmem _ List.mem_cons_self rfl
    rw [hblank, parseFields_field (hfields field List.mem_cons_self) (List.all_eq_true.mp (by decide))
      (atBlank_lineText fields), put_new hnew, ih (fun f hf => hfields f (List.mem_cons_of_mem _ hf))]
    · simp
    · simpa using hkeys

/-- A line whose first field stands at its start. -/
theorem parseKeyValueLine_fields {field : LineField} {fields : List LineField}
    (hfields : ∀ f ∈ field :: fields, f.WellFormed)
    (hkeys : ((field :: fields).map (·.entry.1)).Nodup) :
    parseKeyValueLine (encodeUtf16 (field.text ++ lineText fields)) =
      (field :: fields).map LineField.entry := by
  have hfirst := parseFields_field (hfields field List.mem_cons_self) (List.forall_mem_nil _)
    (atBlank_lineText fields) []
  rw [List.nil_append] at hfirst
  rw [parseKeyValueLine, encodeUtf16_append, hfirst, put_new (by simp),
    parseFields_lineText (fun f hf => hfields f (List.mem_cons_of_mem _ hf))]
  · rfl
  · simpa using hkeys

/-! ### The lines of sulogd -/

theorem isWord_toDigits (n : ℕ) : IsWord (Nat.toDigits 10 n) := by
  intro c hc
  have hdigit : c.isDigit = true := Nat.isDigit_of_mem_toDigits (by decide) (by decide) hc
  have hrange : 0x30 ≤ c.toNat ∧ c.toNat ≤ 0x39 := Char.isDigit_iff_toNat.mp hdigit
  refine ⟨by omega, by omega, ?_, ?_⟩
  · rintro rfl
    exact absurd hrange (by decide)
  · rintro rfl
    exact absurd hrange (by decide)

/-- An unsigned number is printed in digits. -/
theorem isWord_display {α : Type*} [ToString α] {value : α} {n : ℕ} (h : toString value = n.repr) :
    IsWord (display value) := by
  rw [display, h, Nat.toList_repr]
  exact isWord_toDigits n

theorem isWord_display_int32 (value : Int32) : IsWord (display value) := by
  have hstr : toString value = value.toInt.repr := rfl
  rw [display, hstr]
  cases value.toInt with
  | ofNat n =>
    rw [Int.repr, Nat.toList_repr]
    exact isWord_toDigits n
  | negSucc n =>
    rw [Int.repr, String.toList_append, Nat.toList_repr]
    intro c hc
    rcases List.mem_append.mp hc with hc | hc
    · obtain rfl : c = '-' := by simpa using hc
      decide
    · exact isWord_toDigits _ c hc

theorem isWord_eventName (event : SulogEvent) : IsWord event.eventName := by
  rw [SulogEvent.eventName]
  repeat' split
  all_goals decide

/-- The fields of an event's line after the first. -/
def eventFields (header : EventRecordHeader) (event : SulogEvent) : List LineField :=
  [⟨"seq".toList, display header.seq, false⟩,
    ⟨"type".toList, event.eventName, false⟩,
    ⟨"version".toList, display event.version, false⟩,
    ⟨"retval".toList, display event.retval, false⟩,
    ⟨"pid".toList, display event.pid, false⟩,
    ⟨"tgid".toList, display event.tgid, false⟩,
    ⟨"ppid".toList, display event.ppid, false⟩,
    ⟨"uid".toList, display event.uid, false⟩,
    ⟨"euid".toList, display event.euid, false⟩,
    ⟨"comm".toList, event.comm, true⟩,
    ⟨"file".toList, event.file, true⟩,
    ⟨"argv".toList, event.argv, true⟩]

/-- The first field of an event's line. -/
def firstField (header : EventRecordHeader) : LineField := ⟨"ts_ns".toList, display header.tsNs, false⟩

theorem formatEventLine_eq (header : EventRecordHeader) (event : SulogEvent) :
    formatEventLine header event = (firstField header).text ++ lineText (eventFields header event) := by
  unfold formatEventLine
  simp only [firstField, eventFields, lineText, LineField.text, String.reduceToList, List.append_assoc,
    List.cons_append, List.nil_append, List.append_nil, Bool.false_eq_true, if_true, if_false]

/-- The keys of an event's line. -/
def eventKeys : List Str :=
  ["ts_ns".toList, "seq".toList, "type".toList, "version".toList, "retval".toList, "pid".toList,
    "tgid".toList, "ppid".toList, "uid".toList, "euid".toList, "comm".toList, "file".toList,
    "argv".toList]

theorem eventFields_keys (header : EventRecordHeader) (event : SulogEvent) :
    (firstField header :: eventFields header event).map LineField.key = eventKeys := rfl

theorem eventKeys_isWord : ∀ key ∈ eventKeys, IsWord key ∧ key ≠ [] := by
  simp only [eventKeys, List.forall_mem_cons]
  decide

theorem eventKeys_nodup : (eventKeys.map encodeUtf16).Nodup := by decide +kernel

theorem eventFields_value_isWord (header : EventRecordHeader) (event : SulogEvent) :
    ∀ f ∈ firstField header :: eventFields header event, f.quoted = false → IsWord f.value := by
  simp only [firstField, eventFields, List.forall_mem_cons, forall_true_left, Bool.true_eq_false,
    false_implies, List.not_mem_nil, implies_true, and_true]
  exact ⟨isWord_display rfl, isWord_display rfl, isWord_eventName event, isWord_display rfl,
    isWord_display_int32 event.retval, isWord_display rfl, isWord_display rfl, isWord_display rfl,
    isWord_display rfl, isWord_display rfl⟩

theorem eventFields_wellFormed (header : EventRecordHeader) (event : SulogEvent) :
    ∀ f ∈ firstField header :: eventFields header event, f.WellFormed := by
  intro f hf
  have hkey : f.key ∈ eventKeys := eventFields_keys header event ▸ List.mem_map_of_mem hf
  exact ⟨(eventKeys_isWord f.key hkey).1, (eventKeys_isWord f.key hkey).2,
    eventFields_value_isWord header event f hf⟩

/-! ### No control character in a line -/

theorem IsWord.not_isControl {s : Str} (h : IsWord s) : ∀ c ∈ s, isControl c = false := by
  intro c hc
  obtain ⟨hlow, hhigh, -⟩ := h c hc
  simp only [isControl, Bool.or_eq_false_iff, Bool.and_eq_false_iff, decide_eq_false_iff_not]
  omega

theorem not_isControl_of_all {s : Str} (h : s.all (!isControl ·) = true) :
    ∀ c ∈ s, isControl c = false := by
  simpa using h

theorem hex02_not_isControl (code : ℕ) (h : code < 0xA0) : ∀ c ∈ hex02 code, isControl c = false := by
  have hall : ∀ code < 0xA0, (hex02 code).all (!isControl ·) = true := by decide +kernel
  exact not_isControl_of_all (hall code h)

theorem escapeChar_not_isControl (ch : Char) : ∀ c ∈ escapeChar ch, isControl c = false := by
  by_cases hcontrol : isControl ch = true
  · have hlt : ch.toNat < 0xA0 := by
      simp only [isControl, Bool.or_eq_true, Bool.and_eq_true, decide_eq_true_eq] at hcontrol
      omega
    have hhex : ∀ c ∈ '\\' :: 'x' :: hex02 ch.toNat, isControl c = false := by
      intro c hc
      rcases List.mem_cons.mp hc with rfl | hc
      · decide
      rcases List.mem_cons.mp hc with rfl | hc
      · decide
      · exact hex02_not_isControl ch.toNat hlt c hc
    rw [escapeChar, if_pos hcontrol]
    repeat' split
    all_goals first | exact not_isControl_of_all (by decide) | exact hhex
  · have hplain : ∀ c ∈ [ch], isControl c = false := by
      simpa using hcontrol
    rw [escapeChar, if_neg hcontrol]
    repeat' split
    all_goals first | exact not_isControl_of_all (by decide) | exact hplain

theorem escapeField_not_isControl (s : Str) : ∀ c ∈ escapeField s, isControl c = false := by
  intro c hc
  obtain ⟨ch, -, hc⟩ := List.mem_flatMap.mp hc
  exact escapeChar_not_isControl ch c hc

theorem LineField.text_not_isControl {field : LineField} (hfield : field.WellFormed) :
    ∀ c ∈ field.text, isControl c = false := by
  have hvalue : ∀ c ∈ (if field.quoted then '"' :: (escapeField field.value ++ ['"']) else field.value),
      isControl c = false := by
    cases hquoted : field.quoted with
    | false => simpa using (hfield.value_isWord hquoted).not_isControl
    | true =>
      have hquote : isControl '"' = false := by decide
      rw [if_pos rfl, List.forall_mem_cons, List.forall_mem_append, List.forall_mem_singleton]
      exact ⟨hquote, escapeField_not_isControl field.value, hquote⟩
  have heq : isControl '=' = false := by decide
  rw [LineField.text, List.forall_mem_append, List.forall_mem_cons]
  exact ⟨hfield.key_isWord.not_isControl, heq, hvalue⟩

theorem lineText_not_isControl {fields : List LineField} (hfields : ∀ f ∈ fields, f.WellFormed) :
    ∀ c ∈ lineText fields, isControl c = false := by
  induction fields with
  | nil => simp [lineText]
  | cons field fields ih =>
    have hblank : isControl ' ' = false := by decide
    rw [lineText, List.forall_mem_cons, List.forall_mem_append]
    exact ⟨hblank, LineField.text_not_isControl (hfields field List.mem_cons_self),
      ih (fun f hf => hfields f (List.mem_cons_of_mem _ hf))⟩

/-! ### The result -/

/-- What an event's line tells, key by key. -/
def eventEntries (header : EventRecordHeader) (event : SulogEvent) : List (String × Str) :=
  [("ts_ns", display header.tsNs), ("seq", display header.seq), ("type", event.eventName),
    ("version", display event.version), ("retval", display event.retval), ("pid", display event.pid),
    ("tgid", display event.tgid), ("ppid", display event.ppid), ("uid", display event.uid),
    ("euid", display event.euid), ("comm", event.comm), ("file", event.file), ("argv", event.argv)]

/-- **No log forging.**  Whatever the strings of an event hold, its line is one line, and the manager reads
from it exactly the thirteen fields: the strings as they were, the rest as printed. -/
theorem eventLine_roundTrip (header : EventRecordHeader) (event : SulogEvent) :
    (∀ c ∈ formatEventLine header event, c ≠ '\n' ∧ c ≠ '\r') ∧
      parseKeyValueLine (encodeUtf16 (formatEventLine header event)) =
        (eventEntries header event).map fun e => (encodeUtf16 e.1.toList, encodeUtf16 e.2) := by
  have hfields := eventFields_wellFormed header event
  have hkeys : ((firstField header :: eventFields header event).map (·.entry.1)).Nodup :=
    eventKeys_nodup
  rw [formatEventLine_eq]
  constructor
  · have hcontrol : ∀ c ∈ (firstField header).text ++ lineText (eventFields header event),
        isControl c = false := by
      rw [List.forall_mem_append]
      exact ⟨LineField.text_not_isControl (hfields _ List.mem_cons_self),
        lineText_not_isControl fun f hf => hfields f (List.mem_cons_of_mem _ hf)⟩
    intro c hc
    constructor
    · rintro rfl
      exact absurd (hcontrol _ hc) (by decide)
    · rintro rfl
      exact absurd (hcontrol _ hc) (by decide)
  · rw [parseKeyValueLine_fields hfields hkeys]
    rfl

end KernelSU.App
