import Pharos.Axum.TraceGrammar

/-!
# Minting a trace context header

`traceparent_value` checks its two ids by reading back the header it renders.  Reading stops at the
fourth field, so ids that contain dashes are judged by the first three fields of the two together.
-/

namespace Pharos

open Text

namespace Traceparent

/-- The first three fields of the two ids together are a trace id, a span id and flags. -/
def ReadsAsFields (traceId spanId : String) : Prop :=
  ∃ trace span flags more, split (traceId ++ "-" ++ spanId) '-' = trace :: span :: flags :: more ∧
    IsId 32 trace ∧ IsId 16 span ∧ HexDigits 2 flags

section

variable {H : Type} (fromStr : String → Option H) (toStr : H → Option String)

/-- A header is minted exactly for a trace id and a span id, and is read back as them. -/
structure MintsExactly (traceId spanId : String) (sampled : Bool) : Prop where
  minted_iff : (∃ h, traceparentValue fromStr traceId spanId sampled = some h) ↔
    IsId 32 traceId ∧ IsId 16 spanId
  readBack : ∀ h, traceparentValue fromStr traceId spanId sampled = some h →
    (toStr h).bind parse = some { traceId, spanId, sampled }

end

/-- A rendered header has the version, the fields of the two ids and the flags for its fields. -/
theorem split_toHeaderValue (t : Traceparent) :
    split t.toHeaderValue '-' =
      version :: (split (t.traceId ++ "-" ++ t.spanId) '-' ++ [flagsText t.sampled]) := by
  obtain ⟨flagsOk, -⟩ := flagsText_ok t.sampled
  unfold toHeaderValue
  simp only [String.append_assoc, Header.dash_eq]
  rw [split_append version_ok.1.no_dash, split_join, split_join, split_join,
    split_of_not_mem flagsOk.no_dash, List.append_assoc]

/-- The ids of a text without dashes are its only field. -/
theorem IsId.split_eq {n m : Nat} {traceId spanId : String} (traceOk : IsId n traceId)
    (spanOk : IsId m spanId) : split (traceId ++ "-" ++ spanId) '-' = [traceId, spanId] := by
  rw [String.append_assoc, Header.dash_eq, split_append traceOk.no_dash,
    split_of_not_mem spanOk.no_dash]

/-- The two ids make two fields when neither has a dash, and three or more otherwise. -/
theorem split_ids (traceId spanId : String) :
    split (traceId ++ "-" ++ spanId) '-' = [traceId, spanId] ∨
      ∃ first second third more,
        split (traceId ++ "-" ++ spanId) '-' = first :: second :: third :: more := by
  rw [String.append_assoc, Header.dash_eq, split_join]
  cases traceCut : split traceId '-' with
  | nil => exact absurd traceCut split_ne_nil
  | cons a as =>
    cases spanCut : split spanId '-' with
    | nil => exact absurd spanCut split_ne_nil
    | cons b bs =>
      cases as with
      | cons c cs =>
        cases cs with
        | nil => exact .inr ⟨a, c, b, bs, rfl⟩
        | cons d ds => exact .inr ⟨a, c, d, ds ++ b :: bs, rfl⟩
      | nil =>
        cases bs with
        | cons c cs => exact .inr ⟨a, b, c, cs, rfl⟩
        | nil =>
          rw [eq_of_split_singleton traceCut, eq_of_split_singleton spanCut]
          exact .inl rfl

/-- Ids that read as fields have a dash among them. -/
theorem ReadsAsFields.not_ids {traceId spanId : String} (fields : ReadsAsFields traceId spanId) :
    ¬ (IsId 32 traceId ∧ IsId 16 spanId) := by
  rintro ⟨traceOk, spanOk⟩
  obtain ⟨trace, span, flags, more, cut, -⟩ := fields
  rw [traceOk.split_eq spanOk] at cut
  cases cut

/-- A rendered header is read when its ids are well formed, and when they read as fields. -/
theorem parse_toHeaderValue_isSome_iff (t : Traceparent) :
    (parse t.toHeaderValue).isSome = true ↔
      (IsId 32 t.traceId ∧ IsId 16 t.spanId) ∨ ReadsAsFields t.traceId t.spanId := by
  obtain ⟨flagsOk, -⟩ := flagsText_ok t.sampled
  have rendered := split_toHeaderValue t
  rcases split_ids t.traceId t.spanId with ids | ⟨first, second, third, more, ids⟩
  · -- Neither id has a dash: they are the second and the third field.
    rw [ids] at rendered
    rw [parse_of_split rendered, ofFields_isSome_iff]
    constructor
    · rintro ⟨-, traceOk, spanOk, -⟩
      exact .inl ⟨traceOk, spanOk⟩
    · rintro (⟨traceOk, spanOk⟩ | ⟨trace, span, flags, more, cut, -⟩)
      · exact ⟨version_ok, traceOk, spanOk, flagsOk⟩
      · rw [ids] at cut
        cases cut
  · -- The fields that are read all come from the ids.
    rw [ids] at rendered
    rw [parse_of_split rendered, ofFields_isSome_iff]
    constructor
    · rintro ⟨-, traceOk, spanOk, flagsOk⟩
      exact .inr ⟨first, second, third, more, ids, traceOk, spanOk, flagsOk⟩
    · rintro (⟨traceOk, spanOk⟩ | ⟨trace, span, flags, rest, cut, traceOk, spanOk, flagsOk⟩)
      · rw [traceOk.split_eq spanOk] at ids
        cases ids
      · rw [ids] at cut
        cases cut
        exact ⟨version_ok, traceOk, spanOk, flagsOk⟩

section

variable {H : Type} {fromStr : String → Option H} {toStr : H → Option String}

theorem traceparentValue_eq_some_iff {traceId spanId : String} {sampled : Bool} {h : H} :
    traceparentValue fromStr traceId spanId sampled = some h ↔
      ((IsId 32 traceId ∧ IsId 16 spanId) ∨ ReadsAsFields traceId spanId) ∧
        fromStr (Traceparent.mk traceId spanId sampled).toHeaderValue = some h := by
  unfold traceparentValue
  rw [← parse_toHeaderValue_isSome_iff ⟨traceId, spanId, sampled⟩, Option.isSome_iff_exists]
  simp only [Option.bind_eq_some_iff]
  rw [exists_and_right]

end

/-- Every byte of a header with well-formed ids is a visible ASCII character. -/
theorem toHeaderValue_visible {t : Traceparent} (traceOk : IsId 32 t.traceId)
    (spanOk : IsId 16 t.spanId) : ∀ b ∈ bytes t.toHeaderValue, 32 ≤ b ∧ b < 127 := by
  have dash : ∀ b ∈ bytes "-", 32 ≤ b ∧ b < 127 := by
    have single : bytes "-" = [45] := by decide
    rw [single]
    exact List.forall_mem_singleton.2 (by decide)
  have versionOk := version_ok.1.visible
  have flagsOk := (flagsText_ok t.sampled).1.visible
  unfold toHeaderValue
  simp only [bytes_append, List.forall_mem_append]
  exact ⟨⟨⟨⟨⟨⟨versionOk, dash⟩, traceOk.visible⟩, dash⟩, spanOk.visible⟩, dash⟩, flagsOk⟩

/-- Ids that read as fields get a header, though they are no ids. -/
theorem ReadsAsFields.not_mintsExactly {H : Type} {fromStr : String → Option H}
    {toStr : H → Option String} {traceId spanId : String} {sampled : Bool} {h : H}
    (fields : ReadsAsFields traceId spanId)
    (accepted : fromStr (Traceparent.mk traceId spanId sampled).toHeaderValue = some h) :
    ¬ MintsExactly fromStr toStr traceId spanId sampled := fun exactly =>
  fields.not_ids
    (exactly.minted_iff.1 ⟨h, traceparentValue_eq_some_iff.2 ⟨.inr fields, accepted⟩⟩)

/-- A header is minted exactly for a trace id and a span id, unless the two together read as fields
and the text is one a header may have. -/
theorem traceparent_value_mints_exactly_iff {H : Type} (fromStr : String → Option H)
    (toStr : H → Option String)
    (accepts : ∀ text, (∀ b ∈ bytes text, 32 ≤ b ∧ b < 127) → ∃ h, fromStr text = some h)
    (keeps : ∀ text h, (∀ b ∈ bytes text, 32 ≤ b ∧ b < 127) → fromStr text = some h →
      toStr h = some text)
    (traceId spanId : String) (sampled : Bool) :
    MintsExactly fromStr toStr traceId spanId sampled ↔
      ¬ (ReadsAsFields traceId spanId ∧
        ∃ h, fromStr (Traceparent.mk traceId spanId sampled).toHeaderValue = some h) := by
  constructor
  · rintro exactly ⟨fields, h, accepted⟩
    exact fields.not_mintsExactly accepted exactly
  · intro refused
    have ids : ∀ h, traceparentValue fromStr traceId spanId sampled = some h →
        (IsId 32 traceId ∧ IsId 16 spanId) ∧
          fromStr (Traceparent.mk traceId spanId sampled).toHeaderValue = some h := by
      intro h minted
      obtain ⟨ids | fields, accepted⟩ := traceparentValue_eq_some_iff.1 minted
      · exact ⟨ids, accepted⟩
      · exact absurd ⟨fields, h, accepted⟩ refused
    refine ⟨⟨fun ⟨h, minted⟩ => (ids h minted).1, ?_⟩, ?_⟩
    · rintro ⟨traceOk, spanOk⟩
      obtain ⟨h, accepted⟩ := accepts _
        (toHeaderValue_visible (t := ⟨traceId, spanId, sampled⟩) traceOk spanOk)
      exact ⟨h, traceparentValue_eq_some_iff.2 ⟨.inl ⟨traceOk, spanOk⟩, accepted⟩⟩
    · intro h minted
      obtain ⟨⟨traceOk, spanOk⟩, accepted⟩ := ids h minted
      have visible := toHeaderValue_visible (t := ⟨traceId, spanId, sampled⟩) traceOk spanOk
      rw [keeps _ h visible accepted, Option.bind_some]
      exact parse_toHeaderValue traceOk spanOk

/-- `HeaderValue::from_str` on its text: no control characters but tabs. -/
def headerFromStr (text : String) : Option String :=
  if (bytes text).all fun b => (32 ≤ b && b != 127) || b == 9 then some text else none

/-- `HeaderValue::to_str` on its text: visible ASCII characters and tabs. -/
def headerToStr (value : String) : Option String :=
  if (bytes value).all fun b => (32 ≤ b && b < 127) || b == 9 then some value else none

/-- With ids as tracing software makes them the header is minted and read back. -/
theorem traceparent_value_mints_exactly_ids :
    MintsExactly headerFromStr headerToStr "4bf92f3577b34da6a3ce929d0e0e4736" "00f067aa0ba902b7"
      true := by
  refine (traceparent_value_mints_exactly_iff headerFromStr headerToStr ?_ ?_ _ _ _).2 ?_
  · intro text visible
    refine ⟨text, if_pos (List.all_eq_true.2 fun b member => ?_)⟩
    obtain ⟨low, high⟩ := visible b member
    have other : b ≠ 127 := by
      rintro rfl
      exact absurd high (by decide)
    simp [low, other]
  · intro text h visible accepted
    unfold headerFromStr at accepted
    split at accepted
    · cases accepted
      refine if_pos (List.all_eq_true.2 fun b member => ?_)
      obtain ⟨low, high⟩ := visible b member
      simp [low, high]
    · cases accepted
  · rintro ⟨⟨trace, span, flags, more, cut, -⟩, -⟩
    have two : split ("4bf92f3577b34da6a3ce929d0e0e4736" ++ "-" ++ "00f067aa0ba902b7") '-' =
        ["4bf92f3577b34da6a3ce929d0e0e4736", "00f067aa0ba902b7"] := by
      decide
    rw [two] at cut
    cases cut

/-- A trace id with a span id behind a dash passes the check, and `01` for a span id with it. -/
theorem dashed_id_minted :
    ¬ MintsExactly headerFromStr headerToStr
      "4bf92f3577b34da6a3ce929d0e0e4736-00f067aa0ba902b7" "01" true := by
  have fields : ReadsAsFields "4bf92f3577b34da6a3ce929d0e0e4736-00f067aa0ba902b7" "01" :=
    ⟨"4bf92f3577b34da6a3ce929d0e0e4736", "00f067aa0ba902b7", "01", [], by decide,
      continuedHeader_ok.traceId, continuedHeader_ok.spanId, continuedHeader_ok.flags⟩
  exact fields.not_mintsExactly (if_pos (by decide))

end Traceparent

end Pharos
