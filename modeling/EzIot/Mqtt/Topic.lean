import EzIot.Mqtt.Publish

/-! # Topics and filters

`isTopicMatched` and `deliverMessage` of `MQTTClient.c`. The meaning of a filter is given
over the levels of a topic: `+` stands for one level, `#` at the end for the level before
it and everything below. The client asks in addition that no wildcard stands for an empty
or missing level.
-/

namespace EzIot.Mqtt

open CText

abbrev slash : UInt8 := 47
abbrev plus : UInt8 := 43
abbrev hash : UInt8 := 35

theorem separators_ne : slash ≠ plus ∧ slash ≠ hash ∧ hash ≠ plus := by decide

/-! ## The loop of the client -/

/-- The loop of `isTopicMatched` from `curf` and from `curn` to `curn_end`, and the test
behind it. -/
def topicLoop : Bytes → Bytes → Bool
  | [], curn => curn.isEmpty
  | _ :: _, [] => false
  | f :: curf, n :: curn =>
      if n = slash ∧ f ≠ slash then false
      else if f ≠ plus ∧ f ≠ hash ∧ f ≠ n then false
      -- up to the next separator or the end of the topic
      else if f = plus then topicLoop curf (curn.dropWhile (· ≠ slash))
      else if f = hash then topicLoop curf []
      else topicLoop curf curn

/-- `isTopicMatched`: a text that is not in the memory has no result. -/
def isTopicMatched (topicFilter : CString) (topicName : MqttString) : Option Bool :=
  match topicName.lenstring.data with
  | none => some false
  | some _ => (copied topicName.lenstring.data topicName.lenstring.len).map
      (topicLoop topicFilter.val)

/-! ## Levels -/

/-- The levels of a topic: there is always a first one. -/
def levels : Bytes → List Bytes
  | [] => [[]]
  | c :: t =>
      if c = slash then [] :: levels t
      else
        match levels t with
        | [] => [[c]]
        | l :: ls => (c :: l) :: ls

/-- A filter in correct format: `+` and `#` are levels of their own, and `#` is the last one. -/
def ValidLevels : List Bytes → Prop
  | [] => True
  | l :: ls => (l = [plus] ∨ l = [hash] ∧ ls = [] ∨ plus ∉ l ∧ hash ∉ l) ∧ ValidLevels ls

def ValidFilter (topicFilter : Bytes) : Prop := ValidLevels (levels topicFilter)

instance decidableValidLevels : (ls : List Bytes) → Decidable (ValidLevels ls)
  | [] => .isTrue trivial
  | l :: ls =>
      have := decidableValidLevels ls
      inferInstanceAs (Decidable ((l = [plus] ∨ l = [hash] ∧ ls = [] ∨ plus ∉ l ∧ hash ∉ l) ∧
        ValidLevels ls))

instance (topicFilter : Bytes) : Decidable (ValidFilter topicFilter) :=
  decidableValidLevels (levels topicFilter)

/-- What a filter stands for. -/
inductive Covers : List Bytes → List Bytes → Prop
  | nil : Covers [] []
  | all (ns : List Bytes) : Covers [[hash]] ns
  | one (n : Bytes) {fs ns : List Bytes} (h : Covers fs ns) : Covers ([plus] :: fs) (n :: ns)
  | same (n : Bytes) {fs ns : List Bytes} (h : Covers fs ns) : Covers (n :: fs) (n :: ns)

/-- No wildcard stands for an empty or missing level. -/
def Filled : List Bytes → List Bytes → Prop
  | [], _ => True
  | f :: _, [] => f ≠ [hash]
  | f :: fs, n :: ns => (f = [plus] ∨ f = [hash] → n ≠ []) ∧ Filled fs ns

theorem levels_ne_nil (t : Bytes) : levels t ≠ [] := by
  cases t with
  | nil => simp [levels]
  | cons c t =>
      unfold levels
      split
      · simp
      · split <;> simp

/-- The first level of a topic and the others. -/
theorem exists_levels_eq (t : Bytes) : ∃ l ls, levels t = l :: ls :=
  List.exists_cons_of_ne_nil (levels_ne_nil t)

theorem levels_slash (t : Bytes) : levels (slash :: t) = [] :: levels t := by
  simp [levels]

theorem levels_cons {c : UInt8} (hc : c ≠ slash) {t l : Bytes} {ls : List Bytes}
    (h : levels t = l :: ls) : levels (c :: t) = (c :: l) :: ls := by
  simp [levels, hc, h]

theorem levels_eq_singleton_nil {t : Bytes} : levels t = [[]] ↔ t = [] := by
  constructor
  · intro h
    cases t with
    | nil => rfl
    | cons c t =>
        by_cases hc : c = slash
        · subst hc
          rw [levels_slash, List.cons.injEq] at h
          exact absurd h.2 (levels_ne_nil t)
        · obtain ⟨l, ls, ht⟩ := exists_levels_eq t
          rw [levels_cons hc ht] at h
          simp at h
  · rintro rfl
    rfl

/-- Behind the rest of a level its separator comes, or nothing. -/
theorem levels_dropWhile {t l : Bytes} {ls : List Bytes} (h : levels t = l :: ls) :
    levels (t.dropWhile (· ≠ slash)) = [] :: ls := by
  induction t generalizing l ls with
  | nil =>
      simp only [levels, List.cons.injEq] at h
      simp [levels, ← h.2]
  | cons c t ih =>
      by_cases hc : c = slash
      · subst hc
        rw [levels_slash, List.cons.injEq] at h
        simp [levels_slash, h.2]
      · obtain ⟨l', ls', ht⟩ := exists_levels_eq t
        rw [levels_cons hc ht, List.cons.injEq] at h
        simp only [ne_eq, hc, not_false_eq_true, decide_true, List.dropWhile_cons_of_pos]
        exact h.2 ▸ ih ht

/-! ## The loop and the levels -/

/-- The client's meaning of a filter. -/
def Matches (fs ns : List Bytes) : Prop := Covers fs ns ∧ Filled fs ns

theorem matches_nil_iff {ns : List Bytes} : Matches [] ns ↔ ns = [] := by
  constructor
  · rintro ⟨h, -⟩
    cases h
    rfl
  · rintro rfl
    exact ⟨.nil, trivial⟩

theorem not_matches_nil {f : Bytes} {fs : List Bytes} : ¬ Matches (f :: fs) [] := by
  rintro ⟨h, hfilled⟩
  cases h
  exact hfilled rfl

/-- A level that is no wildcard stands for itself. -/
theorem matches_literal {f n : Bytes} {fs ns : List Bytes} (hplus : plus ∉ f) (hhash : hash ∉ f) :
    Matches (f :: fs) (n :: ns) ↔ f = n ∧ Matches fs ns := by
  have hf : f ≠ [plus] ∧ f ≠ [hash] := by
    constructor
    · rintro rfl
      simp at hplus
    · rintro rfl
      simp at hhash
  constructor
  · rintro ⟨h, -, hfilled⟩
    cases h with
    | all => simp at hhash
    | one => simp at hplus
    | same _ h => exact ⟨rfl, h, hfilled⟩
  · rintro ⟨rfl, h, hfilled⟩
    exact ⟨.same f h, fun hor => hor.elim (absurd · hf.1) (absurd · hf.2), hfilled⟩

theorem matches_plus {n : Bytes} {fs ns : List Bytes} :
    Matches ([plus] :: fs) (n :: ns) ↔ n ≠ [] ∧ Matches fs ns := by
  constructor
  · rintro ⟨h, hne, hfilled⟩
    refine ⟨hne (.inl rfl), ?_, hfilled⟩
    cases h with
    | one _ h => exact h
    | same _ h => exact h
  · rintro ⟨hne, h, hfilled⟩
    exact ⟨.one n h, fun _ => hne, hfilled⟩

theorem matches_hash {n : Bytes} {ns : List Bytes} : Matches [[hash]] (n :: ns) ↔ n ≠ [] :=
  ⟨fun h => h.2.1 (.inr rfl), fun hne => ⟨.all _, fun _ => hne, trivial⟩⟩

/-- The loop decides the meaning of a filter in correct format. The induction is on the
filter; inside of a level the rest of it is a literal level. -/
theorem topicLoop_iff {curf : Bytes} (hvalid : ValidFilter curf) (curn : Bytes) :
    topicLoop curf curn = true ↔ Matches (levels curf) (levels curn) := by
  induction curf generalizing curn with
  | nil =>
      obtain ⟨l, ls, hn⟩ := exists_levels_eq curn
      rw [topicLoop, List.isEmpty_iff, ← levels_eq_singleton_nil, hn]
      show _ ↔ Matches ([] :: []) (l :: ls)
      rw [matches_literal (by simp) (by simp), matches_nil_iff, List.cons.injEq, eq_comm (a := l)]
  | cons f curf ih =>
      by_cases hslash : f = slash
      · subst hslash
        rw [ValidFilter, levels_slash] at hvalid
        rw [levels_slash]
        cases curn with
        | nil =>
            obtain ⟨l, ls, hf⟩ := exists_levels_eq curf
            show false = true ↔ Matches _ ([] :: [])
            rw [matches_literal (by simp) (by simp), hf]
            simp [not_matches_nil]
        | cons n curn =>
            by_cases hn : n = slash
            · subst hn
              rw [levels_slash, matches_literal (by simp) (by simp), ← ih hvalid.2]
              simp [topicLoop, separators_ne]
            · obtain ⟨l, ls, ht⟩ := exists_levels_eq curn
              rw [levels_cons hn ht, matches_literal (by simp) (by simp)]
              simp [topicLoop, hn, eq_comm (a := slash), separators_ne.1.symm, separators_ne.2.1.symm]
      · obtain ⟨l, ls, hf⟩ := exists_levels_eq curf
        rw [ValidFilter, levels_cons hslash hf] at hvalid
        obtain ⟨hlevel, hrest⟩ := hvalid
        rw [levels_cons hslash hf]
        have hempty : ¬ Matches ((f :: l) :: ls) ([] :: (levels curn).tail) := by
          rcases hlevel with hplus | ⟨hhash, rfl⟩ | ⟨hplus, hhash⟩
          · rw [hplus, matches_plus]
            simp
          · rw [hhash, matches_hash]
            simp
          · rw [matches_literal hplus hhash]
            simp
        cases curn with
        | nil => simpa [topicLoop, levels] using hempty
        | cons n curn =>
            by_cases hn : n = slash
            · subst hn
              rw [levels_slash] at hempty ⊢
              simpa [topicLoop, hslash] using hempty
            · obtain ⟨l', ls', ht⟩ := exists_levels_eq curn
              rw [levels_cons hn ht]
              rcases hlevel with hplus | ⟨hhash, rfl⟩ | ⟨hplus, hhash⟩
              · obtain ⟨rfl, rfl⟩ := List.cons.inj hplus
                have hcurf : ValidFilter curf := by
                  rw [ValidFilter, hf]
                  exact ⟨.inr (.inr ⟨by simp, by simp⟩), hrest⟩
                have hrec := ih hcurf (curn.dropWhile (· ≠ slash))
                rw [hf, levels_dropWhile ht, matches_literal (by simp) (by simp)] at hrec
                rw [matches_plus]
                simpa [topicLoop, hn] using hrec
              · obtain ⟨rfl, rfl⟩ := List.cons.inj hhash
                rw [levels_eq_singleton_nil] at hf
                subst hf
                rw [matches_hash]
                simp [topicLoop, hn, separators_ne]
              · have hf' : f ≠ plus ∧ f ≠ hash := by
                  simp only [List.mem_cons, not_or] at hplus hhash
                  exact ⟨Ne.symm hplus.1, Ne.symm hhash.1⟩
                rw [matches_literal hplus hhash]
                by_cases heq : f = n
                · subst heq
                  have hl : plus ∉ l ∧ hash ∉ l :=
                    ⟨fun h => hplus (List.mem_cons_of_mem _ h),
                      fun h => hhash (List.mem_cons_of_mem _ h)⟩
                  have hcurf : ValidFilter curf := by
                    rw [ValidFilter, hf]
                    exact ⟨.inr (.inr hl), hrest⟩
                  have hrec := ih hcurf curn
                  rw [hf, ht, matches_literal hl.1 hl.2] at hrec
                  simpa [topicLoop, hn, hf'] using hrec
                · simp [topicLoop, hn, hf', heq]

theorem copied_append (topic rest : Bytes) :
    copied (some (topic ++ rest)) topic.length = some topic := by
  rw [copied, Option.bind_some, if_pos (by simp), List.take_left]

/-- The client matches level by level, if the filter is in correct format. A filter that ends
with `#` does not stand for the topic above it, and neither wildcard stands for an empty level
in its place. -/
theorem isTopicMatched_iff {topicFilter : CString} (hvalid : ValidFilter topicFilter.val)
    (topic rest : Bytes) :
    ∃ matched, isTopicMatched topicFilter ⟨none, topic.length, some (topic ++ rest)⟩ =
        some matched ∧
      (matched = true ↔ Covers (levels topicFilter.val) (levels topic) ∧
        Filled (levels topicFilter.val) (levels topic)) := by
  refine ⟨topicLoop topicFilter.val topic, ?_, topicLoop_iff hvalid topic⟩
  simp only [isTopicMatched, copied_append, Option.map_some]

/-- `a/+/#` and `a/b/c`. -/
theorem isTopicMatched_iff_wildcards :
    ∃ matched, isTopicMatched ⟨[97, 47, 43, 47, 35], by decide⟩
        ⟨none, 5, some ([97, 47, 98, 47, 99] ++ [9])⟩ = some matched ∧
      (matched = true ↔
        Covers (levels [97, 47, 43, 47, 35]) (levels [97, 47, 98, 47, 99]) ∧
          Filled (levels [97, 47, 43, 47, 35]) (levels [97, 47, 98, 47, 99])) := by
  have hvalid : ValidFilter [97, 47, 43, 47, 35] := by decide
  exact isTopicMatched_iff hvalid [97, 47, 98, 47, 99] [9]

/-! ## Delivery -/

/-- A member of `messageHandlers`; it is free if its filter is empty. -/
structure MessageHandler (H : Type) where
  topicFilter : CField 512
  fp : Option H

section Deliver

variable {H : Type}

/-- The test of `deliverMessage`. -/
def handlerMatches (h : MessageHandler H) (topicName : MqttString) : Option Bool :=
  if 0 < h.topicFilter.toCString.length then do
    let equal ← mqttPacketEquals topicName h.topicFilter.toCString
    if equal then pure true else isTopicMatched h.topicFilter.toCString topicName
  else some false

/-- The loop of `deliverMessage`: the functions it calls. -/
def deliverLoop (topicName : MqttString) : List (MessageHandler H) → Option (List H)
  | [] => some []
  | h :: rest => do
      let found ← handlerMatches h topicName
      let calls ← deliverLoop topicName rest
      pure (if found then h.fp.toList ++ calls else calls)

/-- `deliverMessage`: its code and the functions it calls. -/
def deliverMessage (messageHandlers : List (MessageHandler H)) (defaultMessageHandler : Option H)
    (topicName : MqttString) : Option (Int × List H) := do
  let calls ← deliverLoop topicName messageHandlers
  if calls.isEmpty then
    match defaultMessageHandler with
    | some fp => pure (0, [fp])
    | none => pure (-1, [])
  else pure (0, calls)

theorem strncmpZero_iff {a b : Bytes} (hlen : a.length = b.length) (hb : (0 : UInt8) ∉ b) :
    strncmpZero b.length a b = true ↔ a = b := by
  induction b generalizing a with
  | nil =>
      rw [List.length_nil, List.length_eq_zero_iff] at hlen
      simp [hlen, strncmpZero]
  | cons y b ih =>
      cases a with
      | nil => simp at hlen
      | cons x a =>
          simp only [List.mem_cons, not_or] at hb
          have hrec := ih (by simpa using hlen) hb.2
          by_cases hxy : x = y
          · subst hxy
            simp [strncmpZero, Ne.symm hb.1, hrec]
          · simp [strncmpZero, hxy]

/-- A filter takes a topic that it stands for, and the topic that is spelled like it. -/
def Wants (topicFilter topic : Bytes) : Prop :=
  topicFilter ≠ [] ∧ (topic = topicFilter ∨ Matches (levels topicFilter) (levels topic))

theorem handlerMatches_eq {h : MessageHandler H} (hvalid : ValidFilter h.topicFilter.val)
    (topic rest : Bytes) :
    ∃ found, handlerMatches h ⟨none, topic.length, some (topic ++ rest)⟩ = some found ∧
      (found = true ↔ Wants h.topicFilter.val topic) := by
  have hcopied := copied_append topic rest
  have hmatched : isTopicMatched h.topicFilter.toCString ⟨none, topic.length, some (topic ++ rest)⟩ =
      some (topicLoop h.topicFilter.val topic) := by
    simp [isTopicMatched, hcopied]
  have hloop := topicLoop_iff hvalid topic
  unfold handlerMatches Wants
  by_cases hfree : h.topicFilter.val = []
  · exact ⟨false, by simp [CString.length, hfree], by simp [hfree]⟩
  · have hpos : 0 < h.topicFilter.toCString.length := List.length_pos_iff.mpr hfree
    rw [if_pos hpos]
    by_cases hlen : topic.length = h.topicFilter.val.length
    · have hcmp := strncmpZero_iff hlen h.topicFilter.noNul
      have hequals : mqttPacketEquals ⟨none, topic.length, some (topic ++ rest)⟩
          h.topicFilter.toCString = some (strncmpZero topic.length topic h.topicFilter.val) := by
        simp only [mqttPacketEquals, hcopied, Option.map_some, CString.length]
        exact if_pos hlen
      rw [← hlen] at hcmp
      by_cases heq : topic = h.topicFilter.val
      · refine ⟨true, ?_, by simp [hfree, heq]⟩
        simp [hequals, hcmp.mpr heq]
      · have hfalse : strncmpZero topic.length topic h.topicFilter.val = false :=
          Bool.eq_false_iff.mpr (mt hcmp.mp heq)
        refine ⟨topicLoop h.topicFilter.val topic, ?_, by simp [hfree, heq, hloop]⟩
        simp [hequals, hfalse, hmatched]
    · have hequals : mqttPacketEquals ⟨none, topic.length, some (topic ++ rest)⟩
          h.topicFilter.toCString = some false := by
        simp [mqttPacketEquals, CString.length, hlen]
      have hne : topic ≠ h.topicFilter.val := fun heq => hlen (congrArg List.length heq)
      refine ⟨topicLoop h.topicFilter.val topic, ?_, by simp [hfree, hne, hloop]⟩
      simp [hequals, hmatched]

open Classical in
/-- The functions that a message is handed to: those of all filters that want its topic, in
the order of the table, or the default one if there are none. -/
noncomputable def receivers (messageHandlers : List (MessageHandler H))
    (defaultMessageHandler : Option H) (topic : Bytes) : List H :=
  let wanted := messageHandlers.filterMap fun h =>
    if Wants h.topicFilter.val topic then h.fp else none
  if wanted = [] then defaultMessageHandler.toList else wanted

open Classical in
theorem deliverLoop_eq {messageHandlers : List (MessageHandler H)} {topic rest : Bytes}
    (hvalid : ∀ h ∈ messageHandlers, ValidFilter h.topicFilter.val) :
    deliverLoop ⟨none, topic.length, some (topic ++ rest)⟩ messageHandlers =
      some (messageHandlers.filterMap fun h =>
        if Wants h.topicFilter.val topic then h.fp else none) := by
  induction messageHandlers with
  | nil => rfl
  | cons h hs ih =>
      obtain ⟨found, hfound, hiff⟩ := handlerMatches_eq (hvalid h List.mem_cons_self) topic rest
      have hrec := ih fun h' hh' => hvalid h' (List.mem_cons_of_mem h hh')
      simp only [deliverLoop, hfound, hrec, Option.bind_eq_bind, Option.bind_some,
        List.filterMap_cons]
      cases found with
      | true =>
          rw [if_pos (hiff.mp rfl)]
          cases h.fp <;> rfl
      | false => rw [if_neg (mt hiff.mpr (by simp))]; rfl

theorem deliverMessage_eq {messageHandlers : List (MessageHandler H)} {topic rest : Bytes}
    (hvalid : ∀ h ∈ messageHandlers, ValidFilter h.topicFilter.val) (default : Option H) :
    deliverMessage messageHandlers default ⟨none, topic.length, some (topic ++ rest)⟩ =
      some (if receivers messageHandlers default topic = [] then -1 else 0,
        receivers messageHandlers default topic) := by
  classical
  unfold deliverMessage receivers
  simp only [deliverLoop_eq hvalid, Option.bind_eq_bind, Option.bind_some]
  generalize messageHandlers.filterMap _ = wanted
  cases wanted with
  | nil => cases default <;> simp
  | cons w ws => simp

end Deliver

end EzIot.Mqtt
