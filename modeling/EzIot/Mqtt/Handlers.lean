import EzIot.Mqtt.Calls

/-! # The table of handlers over the life of a client

A handler that was registered once is never given back: neither the end of its subscription
nor that of the connection frees its place. The table holds the first filters that were
ever subscribed to, each with the handler it was subscribed with first.
-/

namespace EzIot.Mqtt

open CText

section Handlers

variable {H : Type} {c c' : MqttClient H}

/-! ## What the table stands for -/

/-- The first entry for each key. -/
def firsts {K V : Type} [DecidableEq K] (xs : List (K × V)) : List (K × V) :=
  xs.foldl (fun reg a => if a.1 ∈ reg.map Prod.fst then reg else reg ++ [a]) []

theorem firsts_concat {K V : Type} [DecidableEq K] (xs : List (K × V)) (a : K × V) :
    firsts (xs ++ [a]) =
      if a.1 ∈ (firsts xs).map Prod.fst then firsts xs else firsts xs ++ [a] := by
  rw [firsts, List.foldl_append]
  rfl

def entryOf (h : MessageHandler H) : CString × Option H := (h.topicFilter.toCString, h.fp)

/-- A table with these entries, in front of free places. -/
def Table (hs : List (MessageHandler H)) (reg : List (CString × Option H)) : Prop :=
  ∃ used frees, hs = used ++ frees ∧ used.map entryOf = reg ∧
    (∀ h ∈ used, h.topicFilter.val ≠ []) ∧ ∀ h ∈ frees, h.topicFilter.val = []

/-- The loop of `MQTTSubscribe` finds the filter, or the end of a full table, or a free place. -/
theorem registerHandler_cases {topicFilter : CString} {fp : Option H}
    {used frees hs' : List (MessageHandler H)} (hused : ∀ h ∈ used, h.topicFilter.val ≠ [])
    (hfrees : ∀ h ∈ frees, h.topicFilter.val = []) {found : Bool}
    (h : registerHandler topicFilter fp (used ++ frees) = some (found, hs')) :
    topicFilter ∈ used.map (·.topicFilter.toCString) ∧ hs' = used ++ frees ∧ found = true ∨
    topicFilter ∉ used.map (·.topicFilter.toCString) ∧
      (frees = [] ∧ hs' = used ∧ found = false ∨
        ∃ free rest fits, frees = free :: rest ∧ found = true ∧
          hs' = used ++ ⟨⟨topicFilter, fits⟩, fp⟩ :: rest) := by
  induction used generalizing hs' with
  | nil =>
      right
      refine ⟨by simp, ?_⟩
      cases frees with
      | nil =>
          cases h
          exact .inl ⟨rfl, rfl, rfl⟩
      | cons free rest =>
          have hfree := hfrees free List.mem_cons_self
          simp only [List.nil_append, registerHandler, hfree, ne_eq, not_true_eq_false, false_and,
            if_false, if_true] at h
          split at h
          next fits =>
            cases h
            exact .inr ⟨free, rest, fits, rfl, rfl, rfl⟩
          next => cases h
  | cons x used ih =>
      have hx := hused x List.mem_cons_self
      simp only [List.cons_append, registerHandler, hx, ne_eq, not_false_eq_true, true_and,
        if_false] at h
      split at h
      next heq =>
        cases h
        exact .inl ⟨by simp [heq], rfl, rfl⟩
      next hne =>
        simp only [Option.map_eq_some_iff, Prod.mk.injEq] at h
        obtain ⟨⟨found', hs''⟩, hrest, rfl, rfl⟩ := h
        rcases ih (fun y hy => hused y (List.mem_cons_of_mem x hy)) hrest with
          ⟨hmem, rfl, hfound⟩ | ⟨hnot, hend⟩
        · exact .inl ⟨List.mem_cons_of_mem _ hmem, rfl, hfound⟩
        · refine .inr ⟨?_, ?_⟩
          · rw [List.map_cons, List.mem_cons, not_or]
            exact ⟨fun heq => hne heq.symm, hnot⟩
          · rcases hend with ⟨hfull, rfl, hfound⟩ | ⟨free, rest, fits, hfrees', hfound, rfl⟩
            · exact .inl ⟨hfull, rfl, hfound⟩
            · exact .inr ⟨free, rest, fits, hfrees', hfound, rfl⟩

theorem Table.register {topicFilter : CString} {fp : Option H} {hs hs' : List (MessageHandler H)}
    {reg : List (CString × Option H)} (htable : Table hs (reg.take hs.length)) {found : Bool}
    (h : registerHandler topicFilter fp hs = some (found, hs')) :
    hs'.length = hs.length ∧
      (topicFilter.val = [] ∨ found = false → Table hs' (reg.take hs.length)) ∧
      (topicFilter.val ≠ [] → Table hs' ((if topicFilter ∈ reg.map Prod.fst then reg
        else reg ++ [(topicFilter, fp)]).take hs.length)) := by
  obtain ⟨used, frees, rfl, hentries, hused, hfrees⟩ := htable
  have hnames : used.map (·.topicFilter.toCString) =
      (reg.take (used ++ frees).length).map Prod.fst := by
    rw [← hentries, List.map_map]
    rfl
  have hlen : used.length = min (used ++ frees).length reg.length := by
    rw [← List.length_take, ← hentries, List.length_map]
  rcases registerHandler_cases hused hfrees h with ⟨hmem, rfl, hfound⟩ | ⟨hnot, hend⟩
  · have htable : Table (used ++ frees) (reg.take (used ++ frees).length) :=
      ⟨used, frees, rfl, hentries, hused, hfrees⟩
    rw [hnames, List.map_take] at hmem
    refine ⟨rfl, fun _ => htable, fun _ => ?_⟩
    rw [if_pos (List.mem_of_mem_take hmem)]
    exact htable
  · rw [hnames] at hnot
    rcases hend with ⟨rfl, rfl, hfound⟩ | ⟨free, rest, fits, rfl, hfound, rfl⟩
    · rw [List.append_nil] at hentries hlen ⊢
      have htable : Table hs' (reg.take hs'.length) :=
        ⟨hs', [], (List.append_nil _).symm, hentries, hused, hfrees⟩
      refine ⟨rfl, fun _ => htable, fun _ => ?_⟩
      split
      next => exact htable
      next =>
        rw [List.take_append_of_le_length (by omega)]
        exact htable
    · have hall : reg.take (used ++ free :: rest).length = reg := by
        rw [List.take_of_length_le]
        rw [List.length_append, List.length_cons] at hlen ⊢
        omega
      rw [hall] at hnot hentries ⊢
      refine ⟨by simp, ?_, ?_⟩
      · rintro (hempty | hfull)
        · refine ⟨used, _, rfl, hentries, hused, ?_⟩
          intro x hx
          rcases List.mem_cons.mp hx with rfl | hx
          · exact hempty
          · exact hfrees x (List.mem_cons_of_mem free hx)
        · rw [hfound] at hfull
          cases hfull
      · intro hne
        rw [if_neg hnot, List.take_of_length_le]
        · refine ⟨used ++ [⟨⟨topicFilter, fits⟩, fp⟩], rest, by simp, ?_, ?_, ?_⟩
          · rw [List.map_append, hentries]
            rfl
          · intro x hx
            rcases List.mem_append.mp hx with hx | hx
            · exact hused x hx
            · rw [List.mem_singleton.mp hx]
              exact hne
          · exact fun x hx => hfrees x (List.mem_cons_of_mem free hx)
        · rw [List.length_append, List.length_cons] at hlen
          simp only [List.length_append, List.length_cons, List.length_nil]
          omega

/-! ## Calls -/

inductive Call (H : Type)
  | connect (options : Option MqttPacketConnectData)
  | subscribe (topicFilter : CString) (qos : Nat) (fp : Option H)
  | unsubscribe (topicFilter : CString)
  | publish (topicName : CString) (message : PublishRequest)
  | yield
  | disconnect

def Call.run (charSigned : Bool) : Call H → MqttClient H → Option (Int × MqttClient H)
  | connect options, c => mqttConnect options c
  | subscribe topicFilter qos fp, c => mqttSubscribe charSigned topicFilter qos fp c
  | unsubscribe topicFilter, c => mqttUnsubscribe topicFilter c
  | publish topicName message, c => mqttPublish topicName message c
  | yield, c => mqttYield c
  | disconnect, c => mqttDisconnect c

theorem handlers_sent {f : Bytes → Option (Int × Bytes)}
    {k : Int × MqttClient H → Option (Int × MqttClient H)} {rc : Int}
    (h : ((serializeAndSend f c).bind fun r => if r.1 ≠ success then pure (r.1, r.2) else k r) =
      some (rc, c')) :
    c'.messageHandlers = c.messageHandlers ∧ rc = failure ∨
      ∃ r, r.2.messageHandlers = c.messageHandlers ∧ k r = some (rc, c') := by
  obtain ⟨r, hsend, h⟩ := Option.bind_eq_some_iff.mp h
  have hsame := (turns_serializeAndSend hsend).handlers
  split at h
  next hfailed =>
    cases h
    exact .inl ⟨hsame, (serializeAndSend_code hsend).resolve_left hfailed⟩
  next => exact .inr ⟨r, hsame, h⟩

theorem handlers_awaited {packetType : MsgType}
    {k : Int × MqttClient H → Option (Int × MqttClient H)} {rc : Int}
    (h : (waitfor packetType c).bind k = some (rc, c')) :
    ∃ r, r.2.messageHandlers = c.messageHandlers ∧ k r = some (rc, c') := by
  obtain ⟨r, hwait, h⟩ := Option.bind_eq_some_iff.mp h
  obtain ⟨cs, hwaits, -⟩ := waits_waitfor hwait
  exact ⟨r, hwaits.handlers, h⟩

/-- `MQTTSubscribe` leaves the handlers as they are, or goes through them. -/
theorem handlers_mqttSubscribe {charSigned : Bool} {topicFilter : CString} {qos : Nat}
    {fp : Option H} {rc : Int} (h : mqttSubscribe charSigned topicFilter qos fp c = some (rc, c')) :
    c'.messageHandlers = c.messageHandlers ∧ (rc < 0 ∨ rc = 0x80) ∨
      ∃ found granted, registerHandler topicFilter fp c.messageHandlers =
        some (found, c'.messageHandlers) ∧ granted ≠ 0x80 ∧ rc = if found then 0 else granted := by
  unfold mqttSubscribe at h
  split at h
  · cases h
    exact .inl ⟨rfl, .inl (by decide)⟩
  simp only at h
  rcases handlers_sent h with ⟨hsame, rfl⟩ | ⟨⟨rc₁, c₁⟩, hsame₁, h⟩
  · exact .inl ⟨hsame, .inl (by decide)⟩
  obtain ⟨⟨rc₂, c₂⟩, hsame₂, h⟩ := handlers_awaited h
  have hsame : c₂.messageHandlers = c.messageHandlers := hsame₂.trans hsame₁
  split at h
  next =>
    cases hparse : mqttDeserializeSuback 1 1 ⟨c₂.stale, []⟩ c₂.readbuf with
    | none => simp [hparse] at h
    | some r =>
        rcases r with ⟨ok, out⟩
        simp only [hparse, Option.bind_eq_bind, Option.bind_some, Option.pure_def] at h
        generalize hgranted : (if ok = 1 then
          (out.granted.head?.map (charToInt charSigned)).getD (-1) else success) = granted at h
        split at h
        next hrefused =>
          cases h
          exact .inl ⟨hsame, .inr hrefused⟩
        next hgrants =>
          rw [hsame] at h
          cases hregister : registerHandler topicFilter fp c.messageHandlers with
          | none => simp [hregister] at h
          | some r =>
              rcases r with ⟨found, messageHandlers⟩
              simp only [hregister, Option.bind_some, Option.some.injEq, Prod.mk.injEq] at h
              obtain ⟨hrc, rfl⟩ := h
              exact .inr ⟨found, granted, rfl, hgrants, hrc.symm⟩
  next =>
    cases h
    exact .inl ⟨hsame, .inl (by decide)⟩

theorem handlers_mqttConnect {options : Option MqttPacketConnectData} {rc : Int}
    (h : mqttConnect options c = some (rc, c')) : c'.messageHandlers = c.messageHandlers := by
  unfold mqttConnect at h
  split at h
  · cases h
    rfl
  simp only at h
  rcases handlers_sent h with ⟨hsame, -⟩ | ⟨⟨rc₁, c₁⟩, hsame₁, h⟩
  · exact hsame
  obtain ⟨⟨rc₂, c₂⟩, hsame₂, h⟩ := handlers_awaited h
  have hsame : c₂.messageHandlers = c.messageHandlers := hsame₂.trans hsame₁
  split at h
  · cases hparse : mqttDeserializeConnack (0, 255) c₂.readbuf with
    | none => simp [hparse] at h
    | some r =>
        simp only [hparse, Option.bind_eq_bind, Option.bind_some] at h
        split at h
        · cases h
          exact hsame
        · cases h
          exact hsame
  · cases h
    exact hsame

theorem handlers_mqttUnsubscribe {topicFilter : CString} {rc : Int}
    (h : mqttUnsubscribe topicFilter c = some (rc, c')) :
    c'.messageHandlers = c.messageHandlers := by
  unfold mqttUnsubscribe at h
  split at h
  · cases h
    rfl
  simp only at h
  rcases handlers_sent h with ⟨hsame, -⟩ | ⟨⟨rc₁, c₁⟩, hsame₁, h⟩
  · exact hsame
  obtain ⟨⟨rc₂, c₂⟩, hsame₂, h⟩ := handlers_awaited h
  have hsame : c₂.messageHandlers = c.messageHandlers := hsame₂.trans hsame₁
  split at h
  · cases hparse : mqttDeserializeUnsuback c₂.stale c₂.readbuf with
    | none => simp [hparse] at h
    | some r =>
        simp only [hparse, Option.bind_eq_bind, Option.bind_some] at h
        cases h
        exact hsame
  · cases h
    exact hsame

theorem handlers_mqttPublish {topicName : CString} {m : PublishRequest} {rc : Int}
    (h : mqttPublish topicName m c = some (rc, c')) : c'.messageHandlers = c.messageHandlers := by
  have hid : (if m.qos = 1 ∨ m.qos = 2 then getNextPacketId c else (m.id, c)).2.messageHandlers =
      c.messageHandlers := by
    split <;> rfl
  unfold mqttPublish at h
  split at h
  · cases h
    rfl
  simp only at h
  rcases handlers_sent h with ⟨hsame, -⟩ | ⟨⟨rc₁, c₁⟩, hsame₁, h⟩
  · exact hsame.trans hid
  have hsame : c₁.messageHandlers = c.messageHandlers := hsame₁.trans hid
  split at h
  · obtain ⟨cs, hturns, -⟩ := acknowledged_settled h
    exact hturns.handlers.trans hsame
  split at h
  · obtain ⟨cs, hturns, -⟩ := acknowledged_settled h
    exact hturns.handlers.trans hsame
  · cases h
    exact hsame

theorem handlers_mqttDisconnect {rc : Int} (h : mqttDisconnect c = some (rc, c')) :
    c'.messageHandlers = c.messageHandlers := by
  unfold mqttDisconnect at h
  split at h
  · cases h
    rfl
  cases hsend : serializeAndSend mqttSerializeDisconnect c with
  | none => simp [hsend] at h
  | some r =>
      simp only [hsend, Option.bind_eq_bind, Option.bind_some, Option.pure_def, Option.some.injEq,
        Prod.mk.injEq] at h
      rw [← h.2]
      exact (turns_serializeAndSend hsend).handlers

/-! ## Runs -/

/-- The calls of a client with their results. -/
inductive Ran (charSigned : Bool) (c₀ : MqttClient H) : List (Call H × Int) → MqttClient H → Prop
  | start : Ran charSigned c₀ [] c₀
  | next {log : List (Call H × Int)} {c c' : MqttClient H} {call : Call H} {rc : Int}
      (h : Ran charSigned c₀ log c) (hcall : call.run charSigned c = some (rc, c')) :
      Ran charSigned c₀ (log ++ [(call, rc)]) c'

/-- The subscription that a call and its result make. -/
def subscription : Call H × Int → Option (CString × Option H)
  | (.subscribe topicFilter _ fp, rc) =>
      if 0 ≤ rc ∧ rc ≠ 0x80 ∧ topicFilter.val ≠ [] then some (topicFilter, fp) else none
  | _ => none

/-- The subscriptions of a run. -/
def subscriptions (log : List (Call H × Int)) : List (CString × Option H) :=
  firsts (log.filterMap subscription)

theorem subscriptions_concat_none {log : List (Call H × Int)} {call : Call H} {rc : Int}
    (h : subscription (call, rc) = none) : subscriptions (log ++ [(call, rc)]) = subscriptions log := by
  rw [subscriptions, List.filterMap_append, List.filterMap_cons_none h, List.filterMap_nil,
    List.append_nil]
  rfl

theorem subscriptions_concat_some {log : List (Call H × Int)} {call : Call H} {rc : Int}
    {a : CString × Option H} (h : subscription (call, rc) = some a) :
    subscriptions (log ++ [(call, rc)]) = if a.1 ∈ (subscriptions log).map Prod.fst
      then subscriptions log else subscriptions log ++ [a] := by
  rw [subscriptions, List.filterMap_append, List.filterMap_cons_some h, List.filterMap_nil,
    firsts_concat]
  rfl

theorem Table.step {charSigned : Bool} {log : List (Call H × Int)} {call : Call H} {rc : Int}
    (htable : Table c.messageHandlers ((subscriptions log).take c.messageHandlers.length))
    (h : call.run charSigned c = some (rc, c')) :
    c'.messageHandlers.length = c.messageHandlers.length ∧ Table c'.messageHandlers
      ((subscriptions (log ++ [(call, rc)])).take c.messageHandlers.length) := by
  have hother (hnone : subscription (call, rc) = none)
      (hsame : c'.messageHandlers = c.messageHandlers) :
      c'.messageHandlers.length = c.messageHandlers.length ∧ Table c'.messageHandlers
        ((subscriptions (log ++ [(call, rc)])).take c.messageHandlers.length) := by
    rw [hsame, subscriptions_concat_none hnone]
    exact ⟨rfl, htable⟩
  cases call with
  | connect options => exact hother rfl (handlers_mqttConnect h)
  | unsubscribe topicFilter => exact hother rfl (handlers_mqttUnsubscribe h)
  | publish topicName message => exact hother rfl (handlers_mqttPublish h)
  | yield => exact hother rfl (turns_cycle h).handlers
  | disconnect => exact hother rfl (handlers_mqttDisconnect h)
  | subscribe topicFilter qos fp =>
      rcases handlers_mqttSubscribe h with ⟨hsame, hrefused⟩ | ⟨found, granted, hregister, hne, hrc⟩
      · refine hother (if_neg ?_) hsame
        rintro ⟨hpos, hnot, -⟩
        omega
      · obtain ⟨hlen, hkept, hnew⟩ := htable.register hregister
        refine ⟨hlen, ?_⟩
        by_cases haccepted : 0 ≤ rc ∧ rc ≠ 0x80 ∧ topicFilter.val ≠ []
        · have hsome : subscription (.subscribe topicFilter qos fp, rc) = some (topicFilter, fp) :=
            if_pos haccepted
          rw [subscriptions_concat_some hsome]
          exact hnew haccepted.2.2
        · have hnone : subscription (.subscribe topicFilter qos fp, rc) = none := if_neg haccepted
          rw [subscriptions_concat_none hnone]
          apply hkept
          cases found with
          | false => exact .inr rfl
          | true =>
              left
              rw [if_pos rfl] at hrc
              rw [hrc] at haccepted
              simpa using haccepted

/-- The table of a client that started without handlers: the first filters, as many as there
are places, each with its first handler. -/
theorem handlers_of_run {charSigned : Bool} {c₀ : MqttClient H} {log : List (Call H × Int)}
    (hinit : Table c₀.messageHandlers []) (hrun : Ran charSigned c₀ log c) :
    Table c.messageHandlers ((subscriptions log).take c₀.messageHandlers.length) := by
  suffices hall : c.messageHandlers.length = c₀.messageHandlers.length ∧
      Table c.messageHandlers ((subscriptions log).take c₀.messageHandlers.length) from hall.2
  induction hrun with
  | start =>
      refine ⟨rfl, ?_⟩
      rw [show subscriptions ([] : List (Call H × Int)) = [] from rfl, List.take_nil]
      exact hinit
  | next h hcall ih =>
      obtain ⟨hlen, htable⟩ := ih
      rw [← hlen] at htable ⊢
      exact htable.step hcall

end Handlers

/-- A client without handlers, to which a subscription is granted. -/
def subscriber : MqttClient Nat :=
  { listener [.data [144, 3, 0, 2, 1]] with
    messageHandlers := List.replicate 5 ⟨⟨⟨[], by decide⟩, by decide⟩, none⟩
    timers := [false] }

theorem handlers_of_run_subscriber : ∃ (c : MqttClient Nat) (log : List (Call Nat × Int)),
    Table c.messageHandlers ((subscriptions log).take subscriber.messageHandlers.length) := by
  have hinit : Table subscriber.messageHandlers [] :=
    ⟨[], _, rfl, rfl, by simp, by simp⟩
  have hcode : (Call.run false (.subscribe ⟨[97], by decide⟩ 1 (some 7)) subscriber).map Prod.fst =
      some 0 := by decide +kernel
  obtain ⟨⟨rc, c⟩, hcall, rfl⟩ := Option.map_eq_some_iff.mp hcode
  exact ⟨c, _, handlers_of_run hinit (.next .start hcall)⟩

end EzIot.Mqtt
