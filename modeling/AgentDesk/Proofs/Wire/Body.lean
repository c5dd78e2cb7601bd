import AgentDesk.Proofs.Catalog.Tags
import AgentDesk.Wire.Request

/-! # What the bodies of requests say

The body of a request is the text of an object with the members that were to be written, in their order, and of no
other (`Carries`). So a body tells what it was written for, and whatever stands in one of its texts stays there. -/
namespace AgentDesk.Json

open Grammar

/-! ### A text stands for one list of members -/

theorem ends_of_blank {t : List Char} (h : Blank t []) : Ends t := h.ends fun c hc => by cases hc

theorem readObject_of_enclosed {n : Nat} {u : List Char} {written : Members} {t : List Char}
    (h : Enclosed (Member (Spelled n)) '}' u written t) (ht : Ends t) :
    readObject strict.text (readNested strict n) u = some (written, t) := by
  obtain ⟨read, hread, hexact⟩ :=
    takes_readObject strict_take (takes_readNested strict_take n) (shrinks_spelled n) u written t h ht
  rw [hread, hexact trivial]

/-- A text is an object with one list of members at most. -/
theorem Grammar.IsObject.unique {n m : Nat} {s : List Char} {written written' : Members} (h : IsObject n s written)
    (h' : IsObject m s written') : written = written' := by
  obtain ⟨u, t, hu, hmembers, ht⟩ := h.with_room (Nat.le_max_left n m)
  obtain ⟨u', t', hu', hmembers', ht'⟩ := h'.with_room (Nat.le_max_right n m)
  have hstart : '{' :: u = '{' :: u' := (hu.skips_to (by decide)).symm.trans (hu'.skips_to (by decide))
  obtain rfl := (List.cons.inj hstart).2
  have hread := readObject_of_enclosed hmembers (ends_of_blank ht)
  rw [readObject_of_enclosed hmembers' (ends_of_blank ht')] at hread
  exact (congrArg Prod.fst (Option.some.inj hread)).symm

theorem Grammar.IsObject.parse? {n : Nat} {s : String} {written : Members} (h : IsObject n s.toList written)
    (hn : n < nestingLimit) : Value.parse? s = some (.ofMembers written) := by
  obtain ⟨u, t, hu, hmembers, ht⟩ := h
  have hspelled : Spelled (n + 1) s.toList (.object _) t := Container.spelled hu (.object hmembers (keeps_foldl written))
  have hread := readValue_of_spelled (hspelled.with_room (m := nestingLimit) (.inl hn)) (ends_of_blank ht)
  have hrest : skipSpace t = [] := ht.skips fun c hc => by cases hc
  rw [Value.parse?, hread]
  exact if_pos hrest

end AgentDesk.Json

namespace AgentDesk.Wire

open Json Json.Grammar

/-! ### Bodies -/

/-- The text is an object with these members, in this order, and of no others; and that is what it is read as. -/
structure Carries (text : String) (members : Members) : Prop where
  object : ∀ n written, IsObject n text.toList written ↔ written = members
  value : Value.parse? text = some (.ofMembers members)

theorem carries_renderMembers {members : Members} (h : ∀ m ∈ members, m.2.Canonical 0 ∧ m.2.FloatFree) :
    Carries (renderMembers (members.map fun m => (m.1, m.2.write))) members := by
  have hobject := isObject_renderMembers h
  refine ⟨fun n written => ⟨fun hwritten => hwritten.unique hobject, ?_⟩, hobject.parse? (by decide)⟩
  rintro rfl
  exact hobject.with_room (Nat.zero_le n)

/-- No text is of two lists of members. -/
theorem Carries.eq {text : String} {members members' : Members} (h : Carries text members)
    (h' : Carries text members') : members = members' :=
  (h'.object 0 members).1 ((h.object 0 members).2 rfl)

namespace Request

theorem canonical_members (requestId : String) {r : Request} (h : ∀ p, r = .start p → p.userId < 2 ^ 64) :
    ∀ m ∈ r.members requestId, m.2.Canonical 0 ∧ m.2.FloatFree := by
  have htext (s : String) : (Value.string s).Canonical 0 ∧ (Value.string s).FloatFree := ⟨.string, .string⟩
  cases r with
  | start p =>
    have hid : InRange p.userId := by
      have hid := h p rfl
      unfold InRange
      omega
    simp only [members, List.forall_mem_cons]
    exact ⟨htext _, htext _, ⟨.int hid, .int⟩, htext _, htext _, htext _, List.forall_mem_nil _⟩
  | stop channel =>
    simp only [members, List.forall_mem_cons]
    exact ⟨htext _, htext _, List.forall_mem_nil _⟩
  | ping channel =>
    simp only [members, List.forall_mem_cons]
    exact ⟨htext _, htext _, List.forall_mem_nil _⟩

theorem carries_body (requestId : String) {r : Request} (h : ∀ p, r = .start p → p.userId < 2 ^ 64) :
    Carries (r.body requestId) (r.members requestId) :=
  carries_renderMembers (canonical_members requestId h)

theorem carries_start (requestId : String) {p : Params} (h : p.userId < 2 ^ 64) :
    Carries ((start p).body requestId) ((start p).members requestId) := by
  refine carries_body requestId fun q hq => ?_
  obtain rfl := Request.start.inj hq
  exact h

theorem carries_stop (requestId channel : String) :
    Carries ((stop channel).body requestId) ((stop channel).members requestId) :=
  carries_body requestId fun _ h => by cases h

theorem carries_ping (requestId channel : String) :
    Carries ((ping channel).body requestId) ((ping channel).members requestId) :=
  carries_body requestId fun _ h => by cases h

end Request

/-! ### Names on the wire -/

theorem tag_injective_language {l l' : Catalog.Language} (h : l.tag = l'.tag) : l = l' :=
  Catalog.Language.eq_of_lower_tag l l' (congrArg Text.lower h)

theorem tag_injective_voice {v v' : Catalog.Voice} (h : v.tag = v'.tag) : v = v' :=
  Catalog.Voice.eq_of_lower_tag v v' (congrArg Text.lower h)

theorem decode_language_iff (l l' : Catalog.Language) :
    decodeText Catalog.Language.decode (Value.string l.tag).render = .ok l' ↔ l' = l := by
  rw [Catalog.Language.decode_eq_ok_iff]
  exact ⟨fun h => (tag_injective_language h).symm, fun h => by rw [h]⟩

theorem decode_voice_iff (v v' : Catalog.Voice) :
    decodeText Catalog.Voice.decode (Value.string v.tag).render = .ok v' ↔ v' = v := by
  rw [Catalog.Voice.decode_eq_ok_iff]
  exact ⟨fun h => (tag_injective_voice h).symm, fun h => by rw [h]⟩

/-! ### Faithful bodies -/

/-- What the bodies of requests say, and what they cannot be made to say. -/
structure Faithful (requestId : String) (p : Params) : Prop where
  start : Carries ((Request.start p).body requestId)
    [("request_id", .string requestId), ("channel_name", .string p.channel), ("user_uid", .nat p.userId),
      ("graph_name", .string p.graphName), ("language", .string p.language.tag), ("voice_type", .string p.voice.tag)]
  stop : Carries ((Request.stop p.channel).body requestId)
    [("request_id", .string requestId), ("channel_name", .string p.channel)]
  ping : Carries ((Request.ping p.channel).body requestId)
    [("request_id", .string requestId), ("channel_name", .string p.channel)]
  language : ∀ l, decodeText Catalog.Language.decode (Value.string p.language.tag).render = .ok l ↔ l = p.language
  voice : ∀ v, decodeText Catalog.Voice.decode (Value.string p.voice.tag).render = .ok v ↔ v = p.voice
  start_eq_iff : ∀ q : Params, q.userId < 2 ^ 64 →
    ((Request.start q).body requestId = (Request.start p).body requestId ↔ q = p)
  stop_eq_iff : ∀ channel, (Request.stop channel).body requestId = (Request.stop p.channel).body requestId ↔
    channel = p.channel
  ping_eq_iff : ∀ channel, (Request.ping channel).body requestId = (Request.ping p.channel).body requestId ↔
    channel = p.channel
  /-- Whatever the channel and the graph are called, the members are the same but for these two. -/
  apart : ∀ channel graphName n written,
    IsObject n
        ((Request.start { p with channel := channel, graphName := graphName }).body requestId).toList written →
      written.map Prod.fst = ["request_id", "channel_name", "user_uid", "graph_name", "language", "voice_type"] ∧
        ∀ m ∈ written, m.1 ≠ "channel_name" → m.1 ≠ "graph_name" → m ∈ (Request.start p).members requestId

theorem start_body_inj {requestId : String} {p q : Params} (hp : p.userId < 2 ^ 64) (hq : q.userId < 2 ^ 64)
    (h : (Request.start q).body requestId = (Request.start p).body requestId) : q = p := by
  have hmembers := (h ▸ Request.carries_start requestId hq).eq (Request.carries_start requestId hp)
  obtain ⟨channel, userId, graphName, language, voice⟩ := p
  obtain ⟨channel', userId', graphName', language', voice'⟩ := q
  simp only [Request.members, Value.nat, List.cons.injEq, Prod.mk.injEq, Value.string.injEq, Value.number.injEq,
    Number.int.injEq, Int.natCast_inj, true_and, and_true] at hmembers
  obtain ⟨rfl, rfl, rfl, hlanguage, hvoice⟩ := hmembers
  rw [tag_injective_language hlanguage, tag_injective_voice hvoice]

/-- **The bodies of requests carry what the requests were made with**, for every user id of 64 bits and less and all
texts; and nothing that the channel or the graph is called can add, drop or change another member. -/
theorem body_faithful (requestId : String) (p : Params) (h : p.userId < 2 ^ 64) : Faithful requestId p := by
  refine ⟨Request.carries_start requestId h, Request.carries_stop requestId p.channel,
    Request.carries_ping requestId p.channel, decode_language_iff p.language, decode_voice_iff p.voice,
    fun q hq => ⟨start_body_inj h hq, fun hpq => by rw [hpq]⟩, fun channel => ⟨fun hbody => ?_, fun hc => by rw [hc]⟩,
    fun channel => ⟨fun hbody => ?_, fun hc => by rw [hc]⟩, fun channel graphName n written hwritten => ?_⟩
  · have hmembers := (hbody ▸ Request.carries_stop requestId channel).eq (Request.carries_stop requestId p.channel)
    simpa [Request.members] using hmembers
  · have hmembers := (hbody ▸ Request.carries_ping requestId channel).eq (Request.carries_ping requestId p.channel)
    simpa [Request.members] using hmembers
  · obtain rfl := ((Request.carries_start (p := { p with channel := channel, graphName := graphName }) requestId
      h).object n written).1 hwritten
    refine ⟨rfl, fun m hm hchannel hgraph => ?_⟩
    simp only [Request.members, List.mem_cons, List.not_mem_nil, or_false] at hm ⊢
    obtain rfl | rfl | rfl | rfl | rfl | rfl := hm
    · exact .inl rfl
    · exact absurd rfl hchannel
    · exact .inr (.inr (.inl rfl))
    · exact absurd rfl hgraph
    · exact .inr (.inr (.inr (.inr (.inl rfl))))
    · exact .inr (.inr (.inr (.inr (.inr rfl))))

/-- A channel that looks like more members, and a graph that looks like the end of the object. -/
def crafted : Params := ⟨"\",\"user_uid\":0,\"x\":\"", 7, "\\\"\x7d\n", .korean, .female⟩

theorem body_faithful_crafted :
    crafted.userId < 2 ^ 64 ∧
      Value.parse? ((Request.start crafted).body "r-1") = some (.ofMembers
        [("request_id", .string "r-1"), ("channel_name", .string "\",\"user_uid\":0,\"x\":\""), ("user_uid", .nat 7),
          ("graph_name", .string "\\\"\x7d\n"), ("language", .string "ko-KR"), ("voice_type", .string "female")]) ∧
      (Request.start { crafted with userId := 0 }).body "r-1" ≠ (Request.start crafted).body "r-1" := by
  have hid : crafted.userId < 2 ^ 64 := by decide
  have hfaithful := body_faithful "r-1" crafted hid
  refine ⟨hid, hfaithful.start.value, fun hbody => ?_⟩
  exact absurd ((hfaithful.start_eq_iff _ (by decide)).1 hbody) (by decide)

end AgentDesk.Wire
