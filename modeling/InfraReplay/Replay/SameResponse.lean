import InfraReplay.Comparison.Engine
import InfraReplay.Replay.HttpTarget

/-!
# Capture and replay of one response

The proxy and the replay client decode a body independently. For one response they agree, as the
comparator sees it, exactly when `RecordedAlike` holds (`compare_recorded_iff`):

* the body is not empty: the proxy records `None` for an empty body, the client `""`;
* a body above the capture limit is, as JSON, the truncation note itself: the client has no limit;
* a JSON body within the limit is not itself a NaN, which is equal to nothing;
* any other body reads the same in UTF-8 and in the charset of its content type.
-/

namespace InfraReplay

open Python

/-- The two recordings of a response agree. -/
def RecordedAlike (codec : Codec) (cfg : Config) (r : Response) : Prop :=
  r.content ≠ [] ∧
    if cfg.captureMaxBodyBytes < r.content.length then
      ∃ v, isJsonType r.contentType = true ∧ codec.loads r.content = some v ∧
        (normalize cfg (truncationNote cfg.captureMaxBodyBytes r.content).val).eq
          (normalize cfg v.val) = true
    else if isJsonType r.contentType = true ∧ (codec.loads r.content).isSome then
      ∀ v, codec.loads r.content = some v → v.val.isNan = false
    else placeholder (codec.utf8 r.content) = placeholder (codec.text r.contentType r.content)

variable {codec : Codec} {cfg : Config} {r : Response}

/-- What the client decodes: the JSON value of a JSON body, else its text. -/
theorem targetDecode_cases (codec : Codec) (r : Response) :
    (∃ v, isJsonType r.contentType = true ∧ codec.loads r.content = some v ∧
        targetDecode codec r = v) ∨
      (¬(isJsonType r.contentType = true ∧ (codec.loads r.content).isSome) ∧
        targetDecode codec r = .ofString (codec.text r.contentType r.content)) := by
  unfold targetDecode
  by_cases hjson : isJsonType r.contentType = true
  · rw [if_pos hjson]
    cases hloads : codec.loads r.content with
    | none => exact .inr ⟨by simp, rfl⟩
    | some v => exact .inl ⟨v, hjson, rfl, rfl⟩
  · rw [if_neg hjson]
    exact .inr ⟨fun h => hjson h.1, rfl⟩

/-- The two bodies compare equal exactly when the recordings agree. -/
theorem normalize_decode_eq_iff (hcodec : codec.Lawful) (cfg : Config) (r : Response) :
    (normalize cfg (proxyDecode codec cfg.captureMaxBodyBytes r.content r.contentType).val).eq
        (normalize cfg (targetDecode codec r).val) = true ↔ RecordedAlike codec cfg r := by
  by_cases hnil : r.content = []
  · -- the proxy records `None`, the client the empty text
    have htarget : targetDecode codec r = .ofString "" := by
      rcases targetDecode_cases codec r with ⟨v, -, hloads, -⟩ | ⟨-, htext⟩
      · rw [hnil, hcodec.loads_nil] at hloads
        cases hloads
      · rw [htext, hnil, hcodec.text_nil]
    refine iff_of_false ?_ fun h => h.1 hnil
    rw [htarget, hnil, proxyDecode_nil]
    simp [normalize, Json.ofString, Value.eq, Value.number?]
  rw [RecordedAlike]
  by_cases hlong : cfg.captureMaxBodyBytes < r.content.length
  · -- the proxy records the note, the client the body
    rw [proxyDecode_long hnil hlong, if_pos hlong]
    rcases targetDecode_cases codec r with ⟨v, hjson, hloads, hv⟩ | ⟨hnot, htext⟩
    · rw [hv]
      refine ⟨fun h => ⟨hnil, v, hjson, hloads, h⟩, ?_⟩
      rintro ⟨-, w, -, hw, h⟩
      rw [hloads] at hw
      cases hw
      exact h
    · rw [htext]
      refine iff_of_false ?_ ?_
      · simp [truncationNote, Json.ofString, normalize, Value.eq, Value.number?]
      · rintro ⟨-, w, hjson, hw, -⟩
        exact hnot ⟨hjson, by simp [hw]⟩
  rw [if_neg hlong]
  rcases targetDecode_cases codec r with ⟨v, hjson, hloads, hv⟩ | ⟨hnot, htext⟩
  · -- both record the JSON value, which is equal to itself unless it is a NaN
    have hself : (normalize cfg v.val).eq (normalize cfg v.val) = !v.val.isNan := by
      rw [Value.eq_self _ (wf_normalize v.wf), isNan_normalize]
    rw [hv, proxyDecode_json hnil hlong hjson hloads, hloads, hself, if_pos ⟨hjson, rfl⟩]
    simp [hnil]
  · -- both record text
    rw [htext, proxyDecode_text hnil hlong hnot, if_neg hnot]
    simp [hnil, Json.ofString, normalize, Value.eq]

/-- **One response, recorded twice.** For a response with any status, headers and body, the event
the proxy records and the event the replay client records are judged `MATCH` exactly when the two
recordings agree. -/
theorem compare_recorded_iff (hcodec : codec.Lawful) (cfg : Config) (r : Response)
    {original replayed : Event}
    (ho : original.payload = proxyResponsePayload codec cfg.captureMaxBodyBytes (.ok r))
    (hr : replayed.payload = targetResponsePayload codec (.ok r)) :
    ((httpComparator cfg).compare original replayed).category = .match ↔
      RecordedAlike codec cfg r := by
  have herr : replayed.payload.has "error" = false := by
    rw [hr]
    simp [targetResponsePayload, Payload.has, Payload.get?, Payload.ofEntries, Dict.get?_cons]
  have hstatus : original.payload.getD "status" = .int r.status ∧
      replayed.payload.getD "status" = .int r.status := by
    rw [ho, hr]
    exact ⟨rfl, rfl⟩
  -- the two sides decode one and the same content
  have hbody : original.payload.getD "body" =
        (proxyDecode codec cfg.captureMaxBodyBytes r.content r.contentType).val ∧
      replayed.payload.getD "body" = (targetDecode codec r).val := by
    rw [ho, hr]
    exact ⟨rfl, rfl⟩
  rw [httpComparator, category_compareFields_iff herr, ← normalize_decode_eq_iff hcodec,
    hstatus.1, hstatus.2, hbody.1, hbody.2]
  simp [Value.eq, Value.number?, PyFloat.eq]

/-- A JSON response within the limit. -/
theorem compare_recorded_ok :
    let r : Response :=
      { status := 200, headers := [("content-type", "application/json")], content := okBytes }
    ((httpComparator { ignoreFields := [] }).compare
        (Event.brief .httpResponse "evt_a" "corr_a" 1
          (proxyResponsePayload sampleCodec 65536 (.ok r)))
        (Event.brief .httpResponse "evt_b" "corr_b" 1
          (targetResponsePayload sampleCodec (.ok r)))).category = .match := by
  refine (compare_recorded_iff sampleCodec_lawful { ignoreFields := [] } _ rfl rfl).mpr
    ⟨by decide, ?_⟩
  rw [if_neg (by decide), if_pos (by decide)]
  intro v hv
  obtain rfl : okDocument = v := Option.some.inj hv
  decide

/-- An empty response is never judged `MATCH`. -/
theorem not_match_empty_body :
    ¬∀ (codec : Codec) (cfg : Config) (r : Response) (original replayed : Event), codec.Lawful →
      original.payload = proxyResponsePayload codec cfg.captureMaxBodyBytes (.ok r) →
      replayed.payload = targetResponsePayload codec (.ok r) →
        ((httpComparator cfg).compare original replayed).category = .match := by
  intro h
  let r : Response := { status := 204, headers := [], content := [] }
  have hmatch := h sampleCodec { ignoreFields := [] } r
    (Event.brief .httpResponse "evt_a" "corr_a" 1
      (proxyResponsePayload sampleCodec 65536 (.ok r)))
    (Event.brief .httpResponse "evt_b" "corr_b" 1 (targetResponsePayload sampleCodec (.ok r)))
    sampleCodec_lawful rfl rfl
  exact absurd hmatch (by decide)

end InfraReplay
