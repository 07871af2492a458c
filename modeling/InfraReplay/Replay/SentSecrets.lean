import InfraReplay.Api.Secrets
import InfraReplay.Common.Rely
import InfraReplay.Replay.HttpTarget
import InfraReplay.Replay.Renaming

/-!
# No captured secret is sent again

A replay sends what was stored, and what was stored is masked. The substitution engine rewrites
strings, also the mask, so the caller's mapping decides what stands in its place; headers are
filtered and two are added. `sent_masked` follows a payload from the store to the arguments of the
HTTP client: under every sensitive key, at any depth of the query, the body and the headers, there
is one and the same text, the mask or what the caller maps it to.
-/

namespace InfraReplay

open Python

/-- Every value under a sensitive key is the text `mask`. -/
def MaskedAs (mask : String) (v : Value) : Prop :=
  ∀ k w, Found k w v → isSensitive k = true → w = .str mask

variable {mask : String}

theorem maskedAs_dict {items : List (String × Value)} :
    MaskedAs mask (.dict items) ↔
      ∀ p ∈ items, (isSensitive p.1 = true → p.2 = .str mask) ∧ MaskedAs mask p.2 := by
  constructor
  · exact fun h p hp => ⟨h p.1 p.2 (.here hp), fun k w hfound => h k w (.entry hp hfound)⟩
  · intro h k w hfound
    cases hfound with
    | here hp => exact (h _ hp).1
    | entry hp hfound => exact (h _ hp).2 k w hfound

theorem maskedAs_list {vs : List Value} : MaskedAs mask (.list vs) ↔ ∀ v ∈ vs, MaskedAs mask v := by
  constructor
  · exact fun h v hv k w hfound => h k w (.element hv hfound)
  · intro h k w hfound
    cases hfound with
    | element hv hfound => exact h _ hv k w hfound

theorem maskedAs_str (s : String) : MaskedAs mask (.str s) := fun _ _ h => by cases h

theorem maskedAs_none : MaskedAs mask .none := fun _ _ h => by cases h

/-- An entry of a masked payload. -/
theorem maskedAs_getD {payload : Payload} (h : MaskedAs mask (.dict payload.items))
    (key : String) : MaskedAs mask (payload.getD key) := by
  rw [Payload.getD, Payload.get?]
  cases hk : Dict.get? payload.items key with
  | none => exact maskedAs_none
  | some v => exact (maskedAs_dict.mp h _ (Dict.mem_of_get?_eq_some hk)).2

/-- Renaming the strings of a masked value renames its masks. -/
theorem maskedAs_mapStr {f : String → String} {v : Value} (h : Masked v) :
    MaskedAs (f redactedMask) (v.mapStr f) := by
  induction v using Value.induct with
  | hlist vs ih =>
    rw [Value.mapStr, Value.mapStrList_eq_map, maskedAs_list]
    intro w hw
    obtain ⟨v, hv, rfl⟩ := List.mem_map.mp hw
    exact ih v hv (masked_list.mp h v hv)
  | hdict items ih =>
    rw [Value.mapStr, Value.mapStrItems_eq_map, maskedAs_dict]
    intro p hp
    obtain ⟨q, hq, rfl⟩ := List.mem_map.mp hp
    obtain ⟨hmask, hrest⟩ := masked_dict.mp h q hq
    -- the keys stay, so a sensitive value was the mask, which `f` may rename
    refine ⟨fun hk => ?_, ih q hq hrest⟩
    simp only at hk ⊢
    rw [hmask hk, Value.mapStr]
  | hstr s => exact maskedAs_str _
  | hnone => exact fun _ _ h => by cases h
  | hbool b => exact fun _ _ h => by cases h
  | hint i => exact fun _ _ h => by cases h
  | hfloat x => exact fun _ _ h => by cases h

/-! ### What is sent -/

/-- What stands in a replay in the place of a secret. -/
def sentMask (subs : SubstitutionEngine) : String :=
  (subs.mapping.get? redactedMask).getD redactedMask

/-- The engine treats the mask like any other text, and it is no UUID. -/
theorem replacementOf_redactedMask (supply : Supply) (code : String → ℕ)
    {subs last : SubstitutionEngine} (h : subs.Later last) :
    SubstitutionEngine.replacementOf supply code last redactedMask = sentMask subs := by
  have huuid : isUuid redactedMask = false := by decide
  rw [SubstitutionEngine.replacementOf, sentMask, h.mapping]
  cases subs.mapping.get? redactedMask with
  | none => simp [huuid]
  | some replacement => rfl

/-- The payloads of a recording that was read are masked in one way when they are sent. -/
theorem maskedAs_sentPayloads {source : Recording} (hsource : source.EventsMasked)
    (supply : Supply) (subs : SubstitutionEngine) :
    ∀ payload ∈ sentPayloads supply subs source,
      MaskedAs (sentMask subs) (.dict payload.items) := by
  intro payload hpayload
  -- all payloads are renamed alike, since the engine remembers what it has made up
  rw [sentPayloads, @SubstitutionEngine.applyAll_eq_map supply fun _ => 0] at hpayload
  obtain ⟨recorded, hrecorded, rfl⟩ := List.mem_map.mp hpayload
  obtain ⟨e, he, rfl⟩ := List.mem_map.mp hrecorded
  have hmasked := hsource e (List.mem_filter.mp he).1
  rw [← replacementOf_redactedMask supply (fun _ => 0)
    (SubstitutionEngine.later_afterAll subs ((requestsOf source.events).map Event.payload))]
  exact maskedAs_mapStr hmasked

namespace HttpTarget

/-- Everything in the request that has keys is masked. -/
structure Outgoing.MaskedAs (mask : String) (out : Outgoing) : Prop where
  params : ∀ v, out.params = some v → InfraReplay.MaskedAs mask v
  json : ∀ v, out.json = some v → InfraReplay.MaskedAs mask v.val
  headers : InfraReplay.MaskedAs mask (.dict out.headers.items)

variable {target : HttpTarget} {payload headers : Payload} {correlationId : String}

/-- The two headers that are added are no secrets. -/
theorem maskedAs_headers (h : MaskedAs mask (.dict payload.items))
    (hheaders : target.headers payload correlationId = some headers) :
    MaskedAs mask (.dict headers.items) := by
  obtain ⟨kept, -, hitems, hfrom⟩ := exists_kept hheaders
  have hplain : isSensitive recordingHeader = false ∧ isSensitive correlationHeader = false := by
    decide
  -- a text under a plain name hides nothing and needs no mask
  have hset : ∀ (items : Dict String Value) (name s : String), isSensitive name = false →
      MaskedAs mask (.dict items) → MaskedAs mask (.dict (items.set name (.str s))) := by
    intro items name s hname hmasked
    rw [maskedAs_dict]
    intro p hp
    rcases Dict.mem_set hp with rfl | hp
    · exact ⟨fun hk => absurd hk (by rw [hname]; decide), maskedAs_str s⟩
    · exact maskedAs_dict.mp hmasked p hp
  -- what is kept was recorded in the payload
  have hkept : MaskedAs mask (.dict kept) := by
    rw [maskedAs_dict]
    intro p hp
    obtain ⟨items, hdict, hp⟩ := hfrom p hp
    have hrecorded := maskedAs_getD h "headers"
    rw [hdict, maskedAs_dict] at hrecorded
    exact hrecorded p hp
  rw [hitems]
  exact hset _ _ _ hplain.2 (hset _ _ _ hplain.1 hkept)

/-- A masked payload is sent as a masked request. -/
theorem maskedAs_outgoing (fmt : Value → String) (h : MaskedAs mask (.dict payload.items))
    (hheaders : target.headers payload correlationId = some headers) :
    (target.outgoing fmt payload headers).MaskedAs mask where
  params v hv := by
    rw [outgoing_params] at hv
    split_ifs at hv
    obtain rfl := Option.some.inj hv
    exact maskedAs_getD h "query"
  json v hv := by
    unfold outgoing at hv
    dsimp only at hv
    split_ifs at hv
    obtain rfl := Option.some.inj hv
    exact maskedAs_getD h "body"
  headers := maskedAs_headers h hheaders

end HttpTarget

/-- **No captured secret is sent again.** Read a recording while any operations are under way, and
send its requests to any target, with any substitutions: under every sensitive key of what the
client is given, at any depth, there is the mask, or the one text the caller maps the mask to. -/
theorem sent_masked {order : RowOrder} {recordingId : String} {source : Recording}
    (hread : (getRecording order recordingId).Returns Reachable (some source)) (supply : Supply)
    (mapping : Dict String String) (auto : AutoMode) (target : HttpTarget)
    (fmt : Value → String) {payload headers : Payload} {correlationId : String}
    (hsent : payload ∈
      sentPayloads supply (SubstitutionEngine.create supply mapping auto) source)
    (hheaders : target.headers payload correlationId = some headers) :
    (target.outgoing fmt payload headers).MaskedAs
      (sentMask (SubstitutionEngine.create supply mapping auto)) := by
  have hsource : source.EventsMasked :=
    (getRecording_safe order recordingId).of_returns hread (fun _ h => h.sound) source rfl
  exact HttpTarget.maskedAs_outgoing fmt (maskedAs_sentPayloads hsource supply _ payload hsent)
    hheaders

/-- Reading a recording changes nothing. -/
theorem getRecording_reads (order : RowOrder) (recordingId : String) :
    (getRecording order recordingId).Guarantees Eq := by
  refine (Prog.Guarantees.read _ fun _ => rfl).bind fun found => ?_
  cases found with
  | none => trivial
  | some row => exact (Prog.Guarantees.read _ fun _ => rfl).bind fun _ => trivial

/-- The capture of a login. -/
def loginCapture : Prog Store Error Recording :=
  captureRecording .bySequence "default" "" "http_capture" "1" fun recordingId =>
    { events := [{ Event.brief .httpRequest "evt_1" "corr_1" 0
        (.ofEntries [("path", .ofString "/login"),
          ("body", ⟨.dict [("password", .str "hunter2")], rfl⟩)] (by simp)) with
          recordingId := recordingId }] }

/-- The login that was captured, sent again. -/
theorem sent_masked_login :
    ∃ source payload headers,
      (getRecording .bySequence "rec_1").Returns Reachable (some source) ∧
        payload ∈ sentPayloads ⟨fun _ => "", fun _ => "", fun _ => 0⟩
          (SubstitutionEngine.create ⟨fun _ => "", fun _ => "", fun _ => 0⟩ [] .off) source ∧
        (HttpTarget.open "http://sut" "rpl_1" "sut").headers payload "corr_2" = some headers ∧
        ((HttpTarget.open "http://sut" "rpl_1" "sut").outgoing (fun _ => "") payload
          headers).MaskedAs redactedMask := by
  have hreachable : Reachable (loginCapture.discard.run Store.empty).2 :=
    reachable_empty.run (.captureRecording _ _ _ _ _ _)
  have hrun : ∃ source, ((getRecording .bySequence "rec_1").run
      (loginCapture.discard.run Store.empty).2).1 = .ok (some source) ∧
      ∃ payload headers, payload ∈ sentPayloads ⟨fun _ => "", fun _ => "", fun _ => 0⟩
          (SubstitutionEngine.create ⟨fun _ => "", fun _ => "", fun _ => 0⟩ [] .off) source ∧
        (HttpTarget.open "http://sut" "rpl_1" "sut").headers payload "corr_2" = some headers :=
    ⟨_, rfl, _, _, List.mem_cons_self, rfl⟩
  obtain ⟨source, hrun, payload, headers, hsent, hheaders⟩ := hrun
  have hread := (getRecording_reads .bySequence "rec_1").returns hreachable hrun
  exact ⟨source, payload, headers, hread, hsent, hheaders,
    sent_masked hread ⟨fun _ => "", fun _ => "", fun _ => 0⟩ [] .off _ (fun _ => "") hsent hheaders⟩

end InfraReplay
