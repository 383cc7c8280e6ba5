import Pharos.Axum.Traceparent

/-!
# The grammar of the trace context header

A header is a version, a trace id, a span id and flags between dashes, and a tail.  Only a version
above `00` may have a tail.  `parse` reads every header of that grammar as it should, and it reads
besides the headers of version `00` that go on after their flags.
-/

namespace Pharos

open Text

namespace Traceparent

/-- A header cut into its parts; the tail is whatever follows the flags. -/
structure Header where
  version : String
  traceId : String
  spanId : String
  flags : String
  tail : String

namespace Header

def text (h : Header) : String :=
  h.version ++ "-" ++ h.traceId ++ "-" ++ h.spanId ++ "-" ++ h.flags ++ h.tail

/-- What a header says: its ids and the lowest bit of its flags. -/
def value (h : Header) : Traceparent :=
  { traceId := h.traceId, spanId := h.spanId, sampled := hexValue h.flags % 2 == 1 }

/-- Each of the four fields has its shape. -/
structure FieldsOk (h : Header) : Prop where
  version : HexDigits 2 h.version
  permitted : h.version ≠ "ff"
  traceId : IsId 32 h.traceId
  spanId : IsId 16 h.spanId
  flags : HexDigits 2 h.flags

/-- The header goes on after its flags, with a dash and anything. -/
def Continues (h : Header) : Prop :=
  ∃ rest, h.tail = "-" ++ rest

/-- The grammar: a version above `00` may go on after the flags, version `00` may not. -/
def Conforms (h : Header) : Prop :=
  h.FieldsOk ∧ (h.tail = "" ∨ h.version ≠ "00" ∧ h.Continues)

theorem dash_eq : "-" = String.singleton '-' := by
  decide

/-- `parse` cuts a header with well-formed fields into those fields. -/
theorem FieldsOk.split_text {h : Header} (ok : h.FieldsOk) (tail : h.tail = "" ∨ h.Continues) :
    ∃ more, split h.text '-' = h.version :: h.traceId :: h.spanId :: h.flags :: more := by
  unfold text
  simp only [String.append_assoc, dash_eq]
  rw [split_append ok.version.no_dash, split_append ok.traceId.no_dash,
    split_append ok.spanId.no_dash]
  rcases tail with empty | ⟨rest, continued⟩
  · rw [empty, String.append_empty, split_of_not_mem ok.flags.no_dash]
    exact ⟨[], rfl⟩
  · rw [continued, dash_eq, split_append ok.flags.no_dash]
    exact ⟨_, rfl⟩

/-- The fields have fixed lengths, so a text is a header in one way at most. -/
theorem FieldsOk.text_inj {h k : Header} (hOk : h.FieldsOk) (kOk : k.FieldsOk)
    (same : h.text = k.text) : h.version = k.version ∧ h.tail = k.tail := by
  unfold text at same
  simp only [String.append_assoc] at same
  obtain ⟨version, same⟩ := append_inj (hOk.version.length.trans kOk.version.length.symm) same
  obtain ⟨-, same⟩ := append_inj (hOk.traceId.length.trans kOk.traceId.length.symm)
    ((String.append_right_inj _).1 same)
  obtain ⟨-, same⟩ := append_inj (hOk.spanId.length.trans kOk.spanId.length.symm)
    ((String.append_right_inj _).1 same)
  obtain ⟨-, tail⟩ := append_inj (hOk.flags.length.trans kOk.flags.length.symm)
    ((String.append_right_inj _).1 same)
  exact ⟨version, tail⟩

end Header

/-- What `parse` accepts: well-formed fields, and any tail whatever the version. -/
theorem parse_eq_some_iff {value : String} {t : Traceparent} :
    parse value = some t ↔ ∃ h : Header, h.FieldsOk ∧ (h.tail = "" ∨ h.Continues) ∧
      h.text = value ∧ h.value = t := by
  constructor
  · intro parsed
    unfold parse at parsed
    split at parsed
    case h_2 => cases parsed
    case h_1 version traceId spanId flags more cut =>
      obtain ⟨⟨versionOk, permitted⟩, traceOk, spanOk, flagsOk, rfl⟩ :=
        ofFields_eq_some_iff.1 parsed
      obtain ⟨_, rfl, cutIds⟩ := exists_rest_of_split_cons_cons cut
      obtain ⟨_, rfl, cutSpan⟩ := exists_rest_of_split_cons_cons cutIds
      obtain ⟨_, rfl, cutFlags⟩ := exists_rest_of_split_cons_cons cutSpan
      obtain ⟨-, ⟨-, last⟩ | ⟨rest, rfl, -⟩⟩ := split_eq_cons_iff.1 cutFlags
      · refine ⟨⟨version, traceId, spanId, flags, ""⟩, ⟨versionOk, permitted, traceOk, spanOk,
          flagsOk⟩, .inl rfl, ?_, rfl⟩
        simp only [Header.text, String.append_assoc, String.append_empty, Header.dash_eq, last]
      · refine ⟨⟨version, traceId, spanId, flags, "-" ++ rest⟩, ⟨versionOk, permitted, traceOk,
          spanOk, flagsOk⟩, .inr ⟨rest, rfl⟩, ?_, rfl⟩
        simp only [Header.text, String.append_assoc, Header.dash_eq]
  · rintro ⟨h, ok, tail, rfl, rfl⟩
    obtain ⟨more, cut⟩ := ok.split_text tail
    rw [parse_of_split cut]
    exact ofFields_eq_some_iff.2
      ⟨⟨ok.version, ok.permitted⟩, ok.traceId, ok.spanId, ok.flags, rfl⟩

/-- The flags `to_header_value` writes are two digits with the sampled bit lowest. -/
theorem flagsText_ok (sampled : Bool) :
    HexDigits 2 (flagsText sampled) ∧ (hexValue (flagsText sampled) % 2 == 1) = sampled := by
  cases sampled with
  | true => decide
  | false => decide

theorem version_ok : HexDigits 2 version ∧ version ≠ "ff" := by
  decide

/-- A value with well-formed ids is read back from the header it is written as. -/
theorem parse_toHeaderValue {t : Traceparent} (traceOk : IsId 32 t.traceId)
    (spanOk : IsId 16 t.spanId) : parse t.toHeaderValue = some t := by
  obtain ⟨flagsOk, sampled⟩ := flagsText_ok t.sampled
  refine parse_eq_some_iff.2 ⟨⟨version, t.traceId, t.spanId, flagsText t.sampled, ""⟩,
    ⟨version_ok.1, version_ok.2, traceOk, spanOk, flagsOk⟩, .inl rfl, ?_, ?_⟩
  · exact String.append_empty
  · cases t
    simp only [Header.value, sampled]

/-- `parse` follows the grammar on a text: it succeeds on the headers, with what they say, and what
it returns is read back from its own header. -/
structure FollowsGrammar (text : String) : Prop where
  reads : ∀ t, parse text = some t ↔ ∃ h : Header, h.Conforms ∧ h.text = text ∧ h.value = t
  rereads : ∀ t, parse text = some t → parse t.toHeaderValue = some t

/-- A header of version `00` that goes on after its flags is read, and no header of the grammar. -/
theorem Header.FieldsOk.not_followsGrammar {h : Header} (ok : h.FieldsOk) (zero : h.version = "00")
    (continued : h.Continues) : ¬ FollowsGrammar h.text := by
  intro follows
  have parsed : parse h.text = some h.value :=
    parse_eq_some_iff.2 ⟨h, ok, .inr continued, rfl, rfl⟩
  obtain ⟨k, ⟨kOk, tail⟩, same, -⟩ := (follows.reads _).1 parsed
  obtain ⟨sameVersion, sameTail⟩ := kOk.text_inj ok same
  rcases tail with empty | ⟨higher, -⟩
  · obtain ⟨rest, continued⟩ := continued
    rw [sameTail, continued] at empty
    exact absurd (congrArg String.length empty) (by simp [String.length_append])
  · exact higher (sameVersion.trans zero)

/-- `parse` follows the grammar on every text except the headers of version `00` that go on after
their flags: those it accepts. -/
theorem parse_follows_grammar_iff (text : String) :
    FollowsGrammar text ↔
      ¬ ∃ h : Header, h.FieldsOk ∧ h.version = "00" ∧ h.Continues ∧ h.text = text := by
  constructor
  · rintro follows ⟨h, ok, zero, continued, rfl⟩
    exact ok.not_followsGrammar zero continued follows
  · intro notLong
    refine ⟨fun t => ?_, fun t parsed => ?_⟩
    · rw [parse_eq_some_iff]
      refine exists_congr fun h => ?_
      constructor
      · rintro ⟨ok, empty | continued, same, value⟩
        · exact ⟨⟨ok, .inl empty⟩, same, value⟩
        · refine ⟨⟨ok, .inr ⟨fun zero => notLong ⟨h, ok, zero, continued, same⟩, continued⟩⟩, same,
            value⟩
      · rintro ⟨⟨ok, empty | ⟨-, continued⟩⟩, same, value⟩
        · exact ⟨ok, .inl empty, same, value⟩
        · exact ⟨ok, .inr continued, same, value⟩
    · obtain ⟨h, ok, -, -, rfl⟩ := parse_eq_some_iff.1 parsed
      exact parse_toHeaderValue ok.traceId ok.spanId

/-- A header of version `00` with a fifth field. -/
def continuedHeader : Header where
  version := "00"
  traceId := "4bf92f3577b34da6a3ce929d0e0e4736"
  spanId := "00f067aa0ba902b7"
  flags := "01"
  tail := "-extra"

theorem continuedHeader_ok : continuedHeader.FieldsOk where
  version := by decide
  permitted := by decide
  traceId := by decide
  spanId := by decide
  flags := by decide

/-- `parse` reads a header of version `00` with a fifth field. -/
theorem version_zero_continued :
    (parse "00-4bf92f3577b34da6a3ce929d0e0e4736-00f067aa0ba902b7-01-extra").isSome = true ∧
      ¬ FollowsGrammar "00-4bf92f3577b34da6a3ce929d0e0e4736-00f067aa0ba902b7-01-extra" := by
  have shown : continuedHeader.text =
      "00-4bf92f3577b34da6a3ce929d0e0e4736-00f067aa0ba902b7-01-extra" := by
    decide
  rw [← shown]
  have continued : continuedHeader.Continues := ⟨"extra", by decide⟩
  refine ⟨?_, continuedHeader_ok.not_followsGrammar rfl continued⟩
  rw [parse_eq_some_iff.2 ⟨_, continuedHeader_ok, .inr continued, rfl, rfl⟩, Option.isSome_some]

end Traceparent

end Pharos
