import EzIot.Lib.Scan
import EzIot.Kernel.Queue

/-! # Topics of the v3 protocol

`das_send_pubmsg_v3` prints a topic of the form

  `/iot/<serial>/<sub_serial>/<resource_id>-<resource_type>/<module>/<method>/<msg_type>`

and, for the module `model`, a last part `/<ext_msg>`. `das_message_receive_v3`
reads it back with one scan for the common part; the rest is a second scan for
the module `model`, and otherwise a search for the text `<module>/`.
-/

namespace EzIot.Das

open CText Kernel

abbrev slash : UInt8 := 47
abbrev dash : UInt8 := 45

/-- The texts that a decoder writes into the message. A scanset of full width
puts its terminator behind the member; the text itself is what is recorded. -/
structure TopicNames where
  subSerial : Bytes
  resourceId : Bytes
  resourceType : Bytes
  module : Bytes
  method : Bytes
  msgType : Bytes
  extMsg : Bytes
deriving DecidableEq

def model : Bytes := ascii "model"

/-! ## Printing -/

/-- The common front of a topic and what follows it. -/
def topicPath (serial sub rid rtype tail : Bytes) : Bytes :=
  ascii "/iot/" ++ (serial ++ slash :: (sub ++ slash :: (rid ++ dash :: (rtype ++ slash :: tail))))

/-- What stands in a topic for the serial of the sub-device. -/
def topicSubSerial (msg : PubmsgV3) : Bytes :=
  if 0 < msg.subSerial.val.length then msg.subSerial.val else ascii "global"

/-- What the two formats of `das_send_pubmsg_v3` print behind the module. -/
def topicTail (msg : PubmsgV3) : Bytes :=
  if msg.module.val = model then
    msg.method.val ++ slash :: (msg.msgType.val ++ slash :: msg.extMsg.val)
  else msg.method.val ++ slash :: msg.msgType.val

/-- The topic as the format describes it, before it is cut to the buffer. -/
def topicText (serial : CField 72) (msg : PubmsgV3) : Bytes :=
  topicPath serial.val (topicSubSerial msg) msg.resourceId.val msg.resourceType.val
    (msg.module.val ++ slash :: topicTail msg)

/-- The part of a topic that is the message's. -/
def messagePart (msg : PubmsgV3) : Bytes :=
  topicSubSerial msg ++ slash :: (msg.resourceId.val ++ dash :: (msg.resourceType.val ++
    slash :: (msg.module.val ++ slash :: topicTail msg)))

/-- The topic of `das_send_pubmsg_v3`: `snprintf` into a `char[512]`. -/
def publishTopicV3 (serial : CField 72) (msg : PubmsgV3) : Bytes :=
  (topicText serial msg).take 511

/-! ## Parsing -/

def topicHead : List Directive :=
  lits "/iot/" ++ [.scanset 72 slash, .lit slash, .scanset 72 slash, .lit slash,
    .scanset 64 dash, .lit dash, .scanset 64 slash, .lit slash]

def commonFormat : List Directive := topicHead ++ [.scanset 16 slash, .lit slash]

def modelFormat : List Directive :=
  topicHead ++ (lits "model/" ++ [.scanset 64 slash, .lit slash, .scanset 32 slash, .lit slash,
    .word])

/-- `ezdev_parse_topic`: the method and the message type. -/
def ezdevParseTopic (topic findStr : Bytes) : Except MkernelError (Bytes × Bytes) :=
  match strstr findStr topic with
  | none => .error .platformAppointError
  | some ptemp1 =>
      match strrchr slash ptemp1 with
      | none => .error .platformAppointError
      | some ptemp2 =>
          let tempLen : Int := ptemp2 - findStr.length
          if tempLen ≤ 0 ∨ 128 < tempLen then .error .platformAppointError
          else .ok ((ptemp1.drop findStr.length).take tempLen.toNat,
            (ptemp1.drop (ptemp2 + 1)).take 63)

def receiveTopicV3 (topicName : Bytes) : Except MkernelError TopicNames :=
  if 512 ≤ topicName.length then .error .platformAppointError
  else
    let msgTopic := cstr topicName
    match sscanf commonFormat msgTopic with
    | [.text _, .text sub, .text rid, .text rtype, .text module] =>
        if module = model then
          match sscanf modelFormat msgTopic with
          | [.text _, .text sub, .text rid, .text rtype, .text method, .text msgType, .text ext] =>
              .ok ⟨sub, rid, rtype, module, method, msgType, ext⟩
          | _ => .error .platformAppointError
        else
          match ezdevParseTopic msgTopic (module ++ [slash]) with
          | .error e => .error e
          | .ok (method, msgType) => .ok ⟨sub, rid, rtype, module, method, msgType, []⟩
    | _ => .error .platformAppointError

/-! ## Scanning the common front -/

theorem sscanf_topicHead {serial sub rid rtype : Bytes} (hserial : serial ≠ [] ∧ slash ∉ serial)
    (hsub : sub ≠ [] ∧ slash ∉ sub) (hrid : rid ≠ [] ∧ dash ∉ rid)
    (hrtype : rtype ≠ [] ∧ slash ∉ rtype) (hlen : serial.length ≤ 72 ∧ sub.length ≤ 72 ∧
      rid.length ≤ 64 ∧ rtype.length ≤ 64) (fmt : List Directive) (tail : Bytes) :
    sscanf (topicHead ++ fmt) (topicPath serial sub rid rtype tail) =
      .text serial :: .text sub :: .text rid :: .text rtype :: sscanf fmt tail := by
  rcases hlen with ⟨hlserial, hlsub, hlrid, hlrtype⟩
  unfold topicHead topicPath
  simp only [List.append_assoc, List.cons_append, List.nil_append]
  rw [sscanf_lits, sscanf_scanset hserial.1 hserial.2 hlserial, sscanf_lit,
    sscanf_scanset hsub.1 hsub.2 hlsub, sscanf_lit, sscanf_scanset hrid.1 hrid.2 hlrid,
    sscanf_lit, sscanf_scanset hrtype.1 hrtype.2 hlrtype, sscanf_lit]

/-- A scan that got beyond the common front found it in the text. -/
theorem sscanf_topicHead_eq_cons {fmt : List Directive} {t serial sub rid rtype : Bytes}
    {cap : Capture} {caps : List Capture}
    (h : sscanf (topicHead ++ fmt) t =
      .text serial :: .text sub :: .text rid :: .text rtype :: cap :: caps) :
    ∃ tail, t = topicPath serial sub rid rtype tail ∧ serial ≠ [] ∧ slash ∉ serial ∧
      sscanf fmt tail = cap :: caps := by
  unfold topicHead at h
  simp only [List.append_assoc, List.cons_append, List.nil_append] at h
  rcases sscanf_lits_eq_cons h with ⟨t1, rfl, h1⟩
  obtain ⟨t2, rfl, hne, hserial, h2⟩ := sscanf_scanset_eq_cons h1
  rcases sscanf_lit_eq_cons h2 with ⟨t3, rfl, h3⟩
  rcases sscanf_scanset_eq_cons h3 with ⟨t4, rfl, -, -, h4⟩
  obtain ⟨t5, rfl, h5⟩ := sscanf_lit_eq_cons h4
  rcases sscanf_scanset_eq_cons h5 with ⟨t6, rfl, -, -, h6⟩
  rcases sscanf_lit_eq_cons h6 with ⟨t7, rfl, h7⟩
  obtain ⟨t8, rfl, -, -, h8⟩ := sscanf_scanset_eq_cons h7
  rcases sscanf_lit_eq_cons h8 with ⟨tail, rfl, h9⟩
  exact ⟨tail, rfl, hne, hserial.no_stop, h9⟩

theorem length_topicPath (serial sub rid rtype tail : Bytes) :
    (topicPath serial sub rid rtype tail).length =
      serial.length + (sub.length + rid.length + rtype.length + 9) + tail.length := by
  simp only [topicPath, List.length_append, List.length_cons]
  have h : (ascii "/iot/").length = 5 := rfl
  omega

/-- The serial that a scan takes off a topic ends at its first separator. -/
theorem topicPath_serial_le {serial serial' sub rid rtype tail tail' : Bytes}
    (hserial : slash ∉ serial)
    (h : topicPath serial sub rid rtype tail = topicPath serial' sub rid rtype tail') :
    serial.length ≤ serial'.length :=
  length_le_of_append_cons hserial (List.append_cancel_left h)

theorem topicPath_eq_append (serial sub rid rtype tail : Bytes) :
    topicPath serial sub rid rtype tail = topicPath serial sub rid rtype [] ++ tail := by
  simp [topicPath]

theorem topicPath_inj {serial serial' sub rid rtype tail tail' : Bytes}
    (h : topicPath serial sub rid rtype tail = topicPath serial' sub rid rtype tail')
    (hlen : serial.length = serial'.length) : serial = serial' :=
  (List.append_inj (List.append_cancel_left h) hlen).1

/-! ## The search for the module -/

theorem ezdevParseTopic_of_found {topic findStr q msgType : Bytes}
    (hfound : strstr findStr topic = some (q ++ slash :: msgType)) (hmsgType : slash ∉ msgType)
    (hlen : msgType.length ≤ 63) :
    ezdevParseTopic topic findStr =
      if q.length ≤ findStr.length ∨ 128 + findStr.length < q.length then
        .error .platformAppointError
      else .ok (q.drop findStr.length, msgType) := by
  have hlast : (q ++ slash :: msgType).drop (q.length + 1) = msgType := by
    rw [List.drop_append]
    simp
  unfold ezdevParseTopic
  simp only [hfound, strrchr_append hmsgType]
  by_cases hbad : q.length ≤ findStr.length ∨ 128 + findStr.length < q.length
  · rw [if_pos (by omega), if_pos hbad]
  · have hdrop : (q ++ slash :: msgType).drop findStr.length =
        q.drop findStr.length ++ slash :: msgType := List.drop_append_of_le_length (by omega)
    have htemp : ((q.length : Int) - findStr.length).toNat = (q.drop findStr.length).length := by
      rw [List.length_drop]
      omega
    rw [if_neg (by omega), if_neg hbad, hdrop, hlast, htemp, List.take_left,
      List.take_of_length_le hlen]

/-- A suffix with a separator reaches back to the last one. -/
theorem exists_append_of_suffix {topic front found msgType : Bytes} (hmsgType : slash ∉ msgType)
    (htopic : topic = front ++ slash :: msgType) (hfound : found <:+ topic) (hmem : slash ∈ found) :
    ∃ q, found = q ++ slash :: msgType := by
  have hlast : slash :: msgType <:+ topic := ⟨front, htopic.symm⟩
  rcases List.suffix_or_suffix_of_suffix hfound hlast with hshort | ⟨q, hq⟩
  · rcases List.suffix_cons_iff.mp hshort with heq | hin
    · exact ⟨[], heq⟩
    · exact absurd (hin.subset hmem) hmsgType
  · exact ⟨q, hq.symm⟩

/-- Outside the module `model` the parse is right exactly when the search for the
module stops at the right place: a hit in front of it makes the method longer. -/
theorem ezdevParseTopic_eq_ok_iff {front module method msgType : Bytes} (hmethod : method ≠ [])
    (hlmethod : method.length ≤ 128) (hmsgType : slash ∉ msgType)
    (hlmsgType : msgType.length ≤ 63) :
    ezdevParseTopic (front ++ (module ++ slash :: (method ++ slash :: msgType)))
        (module ++ [slash]) = .ok (method, msgType) ↔
      strstr (module ++ [slash]) (front ++ (module ++ slash :: (method ++ slash :: msgType))) =
        some (module ++ slash :: (method ++ slash :: msgType)) := by
  generalize htopic : front ++ (module ++ slash :: (method ++ slash :: msgType)) = topic
  have hpos : 0 < method.length := List.length_pos_iff.mpr hmethod
  have hsplit : module ++ slash :: (method ++ slash :: msgType) =
      (module ++ [slash] ++ method) ++ slash :: msgType := by simp
  have hlen : (module ++ [slash] ++ method).length = (module ++ [slash]).length + method.length :=
    List.length_append
  constructor
  · intro h
    cases hstr : strstr (module ++ [slash]) topic with
    | none => simp [ezdevParseTopic, hstr] at h
    | some found =>
        rcases strstr_eq_some hstr with ⟨hpre, before, hbefore⟩
        have hmem : slash ∈ found := hpre.subset (by simp)
        have hfront : topic = (front ++ (module ++ [slash] ++ method)) ++ slash :: msgType := by
          rw [← htopic, hsplit, List.append_assoc front]
        obtain ⟨q, rfl⟩ := exists_append_of_suffix hmsgType hfront ⟨before, hbefore.symm⟩ hmem
        rw [ezdevParseTopic_of_found hstr hmsgType hlmsgType] at h
        split at h
        · cases h
        · next hgood =>
            have hdrop : q.drop (module ++ [slash]).length = method :=
              (Prod.mk.inj (Except.ok.inj h)).1
            have hq : q.length = (module ++ [slash] ++ method).length := by
              have hl := congrArg List.length hdrop
              rw [List.length_drop] at hl
              omega
            -- the hit and the right place are suffixes of one length
            have hsame : before ++ q ++ slash :: msgType =
                front ++ (module ++ [slash] ++ method) ++ slash :: msgType := by
              rw [← hfront, hbefore, List.append_assoc]
            have hqeq := List.append_inj_right' (List.append_cancel_right hsame) hq
            rw [hsplit, hqeq]
  · intro h
    rw [hsplit] at h
    rw [ezdevParseTopic_of_found h hmsgType hlmsgType, if_neg (by omega), List.drop_left]

/-- A search that does not stop in a segment. -/
theorem strstr_segment_eq_iff {m seg rest u : Bytes} (hm : slash ∉ m) (hne : m ≠ [])
    (hseg : slash ∉ seg) (hu : u.length ≤ rest.length) :
    strstr (m ++ [slash]) (seg ++ slash :: rest) = some u ↔
      ¬ m <:+ seg ∧ strstr (m ++ [slash]) rest = some u := by
  rw [strstr_segment hm hne hseg]
  by_cases hsuffix : m <:+ seg
  · rw [if_pos hsuffix]
    constructor
    · intro h
      have hlen := congrArg List.length (Option.some.inj h)
      rw [List.length_append, List.length_cons] at hlen
      omega
    · intro h
      exact absurd hsuffix h.1
  · rw [if_neg hsuffix]
    exact ⟨fun h => ⟨hsuffix, h⟩, fun h => h.2⟩

/-- The search reaches the module exactly when no segment before it ends in its name. -/
theorem strstr_topicPath_iff {serial sub rid rtype m : Bytes} (hm : slash ∉ m) (hne : m ≠ [])
    (hserial : slash ∉ serial) (hsub : slash ∉ sub) (hrid : slash ∉ rid) (hrtype : slash ∉ rtype)
    (tail : Bytes) :
    strstr (m ++ [slash]) (topicPath serial sub rid rtype (m ++ slash :: tail)) =
        some (m ++ slash :: tail) ↔
      ¬ m <:+ ascii "iot" ∧ ¬ m <:+ serial ∧ ¬ m <:+ sub ∧ ¬ m <:+ rid ++ dash :: rtype := by
  have hpath : topicPath serial sub rid rtype (m ++ slash :: tail) =
      [] ++ slash :: (ascii "iot" ++ slash :: (serial ++ slash :: (sub ++ slash ::
        ((rid ++ dash :: rtype) ++ slash :: (m ++ slash :: tail))))) := by
    simp [topicPath, ascii]
  have hpair : slash ∉ rid ++ dash :: rtype := by
    rw [List.mem_append, List.mem_cons]
    intro hmem
    rcases hmem with h | h | h
    · exact hrid h
    · exact absurd h (by decide)
    · exact hrtype h
  have hhere : strstr (m ++ [slash]) (m ++ slash :: tail) = some (m ++ slash :: tail) := by
    rw [strstr_segment hm hne hm, if_pos (List.suffix_refl m)]
  rw [hpath, strstr_segment_eq_iff hm hne List.not_mem_nil (by simp; omega),
    strstr_segment_eq_iff hm hne (by decide) (by simp; omega),
    strstr_segment_eq_iff hm hne hserial (by simp; omega),
    strstr_segment_eq_iff hm hne hsub (by simp; omega),
    strstr_segment_eq_iff hm hne hpair (Nat.le_refl _)]
  simp only [hhere, and_true, List.suffix_nil, hne, not_false_eq_true, true_and]

/-! ## The round trip -/

/-- The names that a parse returned are those of the message. -/
structure Names (names : TopicNames) (msg : PubmsgV3) : Prop where
  subSerial : names.subSerial = msg.subSerial.val
  resourceId : names.resourceId = msg.resourceId.val
  resourceType : names.resourceType = msg.resourceType.val
  module : names.module = msg.module.val
  method : names.method = msg.method.val
  msgType : names.msgType = msg.msgType.val
  extMsg : msg.module.val = model → names.extMsg = msg.extMsg.val

def TopicRoundTrip (serial : CField 72) (msg : PubmsgV3) : Prop :=
  ∃ names, receiveTopicV3 (publishTopicV3 serial msg) = .ok names ∧ Names names msg

structure Level (s : Bytes) : Prop where
  ne_nil : s ≠ []
  no_slash : slash ∉ s

/-- The messages whose topic is meant to be read back. The widths of the members
are those of their types. Of the serial nothing is asked but that one with a slash has no
white space: with both it could hold the text of a whole topic, which would be read. -/
structure Printable (serial : CField 72) (msg : PubmsgV3) : Prop where
  subSerial : Level msg.subSerial.val
  resourceId : Level msg.resourceId.val
  resourceId_no_dash : dash ∉ msg.resourceId.val
  resourceType : Level msg.resourceType.val
  module : Level msg.module.val
  method_ne_nil : msg.method.val ≠ []
  method_model : msg.module.val = model → slash ∉ msg.method.val
  msgType : Level msg.msgType.val
  extMsg_model : msg.module.val = model → msg.extMsg.val ≠ []
  no_space : ∀ b ∈ messagePart msg, isSpace b = false
  serial_no_space : slash ∈ serial.val → ∀ b ∈ serial.val, isSpace b = false
  short : (topicText serial msg).length < 512

/-- When the topic can be read back: the serial is one level, and the scan widths
suffice or the search for the module is not misled. -/
def Parsable (serial : CField 72) (msg : PubmsgV3) : Prop :=
  serial.val ≠ [] ∧ slash ∉ serial.val ∧
    if msg.module.val = model then msg.method.val.length ≤ 64 ∧ msg.msgType.val.length ≤ 32
    else ¬ msg.module.val <:+ ascii "iot" ∧ ¬ msg.module.val <:+ serial.val ∧
      ¬ msg.module.val <:+ msg.subSerial.val ∧
      ¬ msg.module.val <:+ msg.resourceId.val ++ dash :: msg.resourceType.val

theorem receiveTopicV3_model {t : Bytes} {names : TopicNames} (h : receiveTopicV3 t = .ok names)
    (hmodel : names.module = model) :
    ∃ serial, sscanf modelFormat (cstr t) = [.text serial, .text names.subSerial,
      .text names.resourceId, .text names.resourceType, .text names.method, .text names.msgType,
      .text names.extMsg] := by
  unfold receiveTopicV3 at h
  split at h
  · cases h
  · dsimp only at h
    split at h
    · split at h
      · split at h
        · next hscan =>
            cases h
            exact ⟨_, hscan⟩
        · cases h
      · next hne =>
          split at h
          · cases h
          · cases h
            exact absurd hmodel hne
    · cases h

theorem receiveTopicV3_other {t : Bytes} {names : TopicNames} (h : receiveTopicV3 t = .ok names)
    (hmodel : names.module ≠ model) :
    (∃ serial, sscanf commonFormat (cstr t) = [.text serial, .text names.subSerial,
      .text names.resourceId, .text names.resourceType, .text names.module]) ∧
      ezdevParseTopic (cstr t) (names.module ++ [slash]) = .ok (names.method, names.msgType) := by
  unfold receiveTopicV3 at h
  split at h
  · cases h
  · dsimp only at h
    split at h
    · next hscan =>
        split at h
        · next heq =>
            split at h
            · cases h
              exact absurd heq hmodel
            · cases h
        · split at h
          · cases h
          · next hparse =>
              cases h
              exact ⟨⟨_, hscan⟩, hparse⟩
    · cases h

theorem zero_not_mem_topicText (serial : CField 72) (msg : PubmsgV3) :
    (0 : UInt8) ∉ topicText serial msg := by
  have hslash : ¬ (0 : UInt8) = slash := by decide
  have hdash : ¬ (0 : UInt8) = dash := by decide
  have hsub : (0 : UInt8) ∉ topicSubSerial msg := by
    unfold topicSubSerial
    split
    · exact msg.subSerial.noNul
    · decide
  have htail : (0 : UInt8) ∉ topicTail msg := by
    unfold topicTail
    split <;> simp [hslash, msg.method.noNul, msg.msgType.noNul, msg.extMsg.noNul]
  have hiot : (0 : UInt8) ∉ ascii "/iot/" := by decide
  simp [topicText, topicPath, hsub, htail, hiot, hslash, hdash, serial.noNul, msg.resourceId.noNul,
    msg.resourceType.noNul, msg.module.noNul]

section RoundTrip

variable {serial : CField 72} {msg : PubmsgV3}

theorem Printable.publishTopicV3_eq (h : Printable serial msg) :
    publishTopicV3 serial msg = topicText serial msg :=
  List.take_of_length_le (Nat.le_of_lt_succ h.short)

theorem Printable.cstr_eq (h : Printable serial msg) :
    cstr (publishTopicV3 serial msg) = topicText serial msg := by
  rw [h.publishTopicV3_eq, cstr_of_no_zero (zero_not_mem_topicText serial msg)]

theorem Printable.topicText_eq (h : Printable serial msg) :
    topicText serial msg = topicPath serial.val msg.subSerial.val msg.resourceId.val
      msg.resourceType.val (msg.module.val ++ slash :: topicTail msg) := by
  unfold topicText topicSubSerial
  rw [if_pos (List.length_pos_iff.mpr h.subSerial.ne_nil)]

theorem Printable.topicText_no_space (h : Printable serial msg) (hserial : slash ∈ serial.val) :
    ∀ b ∈ topicText serial msg, isSpace b = false := by
  intro b hb
  have hparts : topicText serial msg =
      ascii "/iot/" ++ (serial.val ++ slash :: messagePart msg) := rfl
  have hfixed : (ascii "/iot/").all (fun b => isSpace b == false) = true := by decide
  rw [hparts, List.mem_append, List.mem_append, List.mem_cons] at hb
  rcases hb with hfront | hmem | rfl | hpart
  · exact eq_of_beq (List.all_eq_true.mp hfixed b hfront)
  · exact h.serial_no_space hserial b hmem
  · rfl
  · exact h.no_space b hpart

/-- The common front of a printed topic is scanned back. -/
theorem Printable.sscanf_head (h : Printable serial msg) (hserial : Level serial.val)
    (fmt : List Directive) :
    sscanf (topicHead ++ fmt) (topicText serial msg) =
      .text serial.val :: .text msg.subSerial.val :: .text msg.resourceId.val ::
        .text msg.resourceType.val :: sscanf fmt (msg.module.val ++ slash :: topicTail msg) := by
  have hlserial := serial.fits
  have hlsub := msg.subSerial.fits
  have hlrid := msg.resourceId.fits
  have hlrtype := msg.resourceType.fits
  rw [h.topicText_eq]
  exact sscanf_topicHead ⟨hserial.ne_nil, hserial.no_slash⟩
    ⟨h.subSerial.ne_nil, h.subSerial.no_slash⟩ ⟨h.resourceId.ne_nil, h.resourceId_no_dash⟩
    ⟨h.resourceType.ne_nil, h.resourceType.no_slash⟩ (by omega) fmt _

theorem Printable.sscanf_common (h : Printable serial msg) (hserial : Level serial.val) :
    sscanf commonFormat (topicText serial msg) =
      [.text serial.val, .text msg.subSerial.val, .text msg.resourceId.val,
        .text msg.resourceType.val, .text msg.module.val] := by
  unfold commonFormat
  rw [h.sscanf_head hserial, sscanf_scanset h.module.ne_nil h.module.no_slash
    (Nat.le_of_lt msg.module.fits), sscanf_lit]
  rfl

theorem topicTail_model (hmodel : msg.module.val = model) :
    topicTail msg = msg.method.val ++ slash :: (msg.msgType.val ++ slash :: msg.extMsg.val) :=
  if_pos hmodel

theorem topicTail_other (hmodel : msg.module.val ≠ model) :
    topicTail msg = msg.method.val ++ slash :: msg.msgType.val :=
  if_neg hmodel

/-- A scan for the module `model` that returned the names of the message took the
serial, and its widths were enough. -/
theorem Printable.of_sscanf_model (h : Printable serial msg) (hmodel : msg.module.val = model)
    {serial' : Bytes} (hscan : sscanf modelFormat (topicText serial msg) =
      [.text serial', .text msg.subSerial.val, .text msg.resourceId.val,
        .text msg.resourceType.val, .text msg.method.val, .text msg.msgType.val,
        .text msg.extMsg.val]) :
    Level serial.val ∧ msg.method.val.length ≤ 64 ∧ msg.msgType.val.length ≤ 32 := by
  unfold modelFormat at hscan
  rcases sscanf_topicHead_eq_cons hscan with ⟨tail, htext, hne, hslash, h1⟩
  rcases sscanf_lits_eq_cons h1 with ⟨t1, rfl, h2⟩
  obtain ⟨t2, rfl, -, hmethod, h3⟩ := sscanf_scanset_eq_cons h2
  rcases sscanf_lit_eq_cons h3 with ⟨t3, rfl, h4⟩
  rcases sscanf_scanset_eq_cons h4 with ⟨t4, rfl, -, hmsgType, h5⟩
  obtain ⟨t5, rfl, h6⟩ := sscanf_lit_eq_cons h5
  have hsame : serial.val = serial' := by
    by_cases hserial : slash ∈ serial.val
    · -- the topic has no white space, so the last directive takes all that is left
      have hext : t5 = msg.extMsg.val := by
        have hspace : ∀ b ∈ t5, isSpace b = false := by
          intro b hb
          apply h.topicText_no_space hserial b
          rw [htext]
          simp [topicPath, hb]
        have hnil : t5 ≠ [] := by
          rintro rfl
          cases h6
        rw [sscanf_word hnil hspace] at h6
        exact Capture.text.inj (List.cons.inj h6).1
      rw [h.topicText_eq, topicTail_model hmodel, hext] at htext
      have hlen := congrArg List.length htext
      have hl : (ascii "model/").length = 6 := rfl
      have hm : msg.module.val.length = 5 := congrArg List.length hmodel
      simp only [length_topicPath, List.length_append, List.length_cons] at hlen
      exact topicPath_inj htext (by omega)
    · -- both serials end at the first slash
      unfold topicText topicPath at htext
      exact (append_cons_inj hserial hslash (List.append_cancel_left htext)).1
  exact ⟨⟨hsame ▸ hne, hsame ▸ hslash⟩, hmethod.le_width, hmsgType.le_width⟩

theorem Printable.roundTrip_model_iff (h : Printable serial msg) (hmodel : msg.module.val = model) :
    TopicRoundTrip serial msg ↔ Parsable serial msg := by
  unfold Parsable
  rw [if_pos hmodel]
  constructor
  · intro htrip
    rcases htrip with ⟨names, hreceive, hnames⟩
    rcases receiveTopicV3_model hreceive (hnames.module.trans hmodel) with ⟨serial', hscan⟩
    rw [h.cstr_eq, hnames.subSerial, hnames.resourceId, hnames.resourceType, hnames.method,
      hnames.msgType, hnames.extMsg hmodel] at hscan
    rcases h.of_sscanf_model hmodel hscan with ⟨hserial, hwidths⟩
    exact ⟨hserial.ne_nil, hserial.no_slash, hwidths⟩
  · intro hparsable
    rcases hparsable with ⟨hne, hslash, hlmethod, hlmsgType⟩
    have hspace : ∀ b ∈ msg.extMsg.val, isSpace b = false := by
      intro b hb
      apply h.no_space b
      rw [messagePart, topicTail_model hmodel]
      simp [hb]
    have hmodelText : msg.module.val ++ slash :: topicTail msg =
        ascii "model/" ++ topicTail msg := by rw [hmodel]; rfl
    have hscan : sscanf modelFormat (topicText serial msg) =
        [.text serial.val, .text msg.subSerial.val, .text msg.resourceId.val,
          .text msg.resourceType.val, .text msg.method.val, .text msg.msgType.val,
          .text msg.extMsg.val] := by
      unfold modelFormat
      rw [h.sscanf_head ⟨hne, hslash⟩, hmodelText, sscanf_lits, topicTail_model hmodel,
        sscanf_scanset h.method_ne_nil (h.method_model hmodel) hlmethod, sscanf_lit,
        sscanf_scanset h.msgType.ne_nil h.msgType.no_slash hlmsgType, sscanf_lit,
        sscanf_word (h.extMsg_model hmodel) hspace]
    refine ⟨⟨_, _, _, _, _, _, _⟩, ?_, ⟨rfl, rfl, rfl, rfl, rfl, rfl, fun _ => rfl⟩⟩
    unfold receiveTopicV3
    rw [h.cstr_eq, h.publishTopicV3_eq, if_neg (Nat.not_le.mpr h.short)]
    simp only [h.sscanf_common ⟨hne, hslash⟩, if_pos hmodel, hscan]

/-- A parse by search that returned the names of the message took the serial, and
its search stopped at the module. -/
theorem Printable.of_parse_other (h : Printable serial msg) {serial' : Bytes}
    (hscan : sscanf commonFormat (topicText serial msg) = [.text serial', .text msg.subSerial.val,
      .text msg.resourceId.val, .text msg.resourceType.val, .text msg.module.val])
    (hstr : strstr (msg.module.val ++ [slash]) (topicText serial msg) =
      some (msg.module.val ++ slash :: topicTail msg)) : Level serial.val := by
  unfold commonFormat at hscan
  obtain ⟨tail, htext, hne, hslash, h1⟩ := sscanf_topicHead_eq_cons hscan
  rcases sscanf_scanset_eq_cons h1 with ⟨rest, rfl, -, hmodule, -⟩
  have hle : serial'.length ≤ serial.val.length := by
    rw [h.topicText_eq] at htext
    exact topicPath_serial_le hslash htext.symm
  have hlen := congrArg List.length htext
  rw [h.topicText_eq] at hlen
  simp only [length_topicPath, List.length_append, List.length_cons] at hlen
  have hsame : serial.val = serial' := by
    rcases hmodule.stopped msg.module.fits with rfl | ⟨rest', rfl⟩
    · rw [List.length_nil] at hlen
      omega
    · -- the scanned module is an occurrence, and the search stops no later
      have hhit : msg.module.val ++ [slash] <+: msg.module.val ++ slash :: rest' :=
        ⟨rest', by simp⟩
      have hmax := length_le_of_strstr hstr (htext.trans (topicPath_eq_append _ _ _ _ _)) hhit
      simp only [List.length_append, List.length_cons] at hmax hlen
      rw [h.topicText_eq] at htext
      exact topicPath_inj htext (by omega)
  exact ⟨hsame ▸ hne, hsame ▸ hslash⟩

theorem Printable.roundTrip_other_iff (h : Printable serial msg) (hmodel : msg.module.val ≠ model) :
    TopicRoundTrip serial msg ↔ Parsable serial msg := by
  have hparse : ezdevParseTopic (topicText serial msg) (msg.module.val ++ [slash]) =
        .ok (msg.method.val, msg.msgType.val) ↔
      strstr (msg.module.val ++ [slash]) (topicText serial msg) =
        some (msg.module.val ++ slash :: topicTail msg) := by
    rw [h.topicText_eq, topicPath_eq_append, topicTail_other hmodel]
    exact ezdevParseTopic_eq_ok_iff h.method_ne_nil (Nat.le_of_lt msg.method.fits)
      h.msgType.no_slash (Nat.le_of_lt_succ msg.msgType.fits)
  have hsearch (hserial : Level serial.val) :=
    strstr_topicPath_iff h.module.no_slash h.module.ne_nil hserial.no_slash
      h.subSerial.no_slash h.resourceId.no_slash h.resourceType.no_slash (topicTail msg)
  unfold Parsable
  rw [if_neg hmodel]
  constructor
  · intro htrip
    rcases htrip with ⟨names, hreceive, hnames⟩
    have hother : names.module ≠ model := fun heq => hmodel (hnames.module.symm.trans heq)
    rcases receiveTopicV3_other hreceive hother with ⟨⟨serial', hscan⟩, hok⟩
    rw [h.cstr_eq, hnames.module, hnames.method, hnames.msgType] at hok
    rw [h.cstr_eq, hnames.subSerial, hnames.resourceId, hnames.resourceType,
      hnames.module] at hscan
    have hstr := hparse.mp hok
    have hserial := h.of_parse_other hscan hstr
    rw [h.topicText_eq] at hstr
    exact ⟨hserial.ne_nil, hserial.no_slash, (hsearch hserial).mp hstr⟩
  · intro hparsable
    rcases hparsable with ⟨hne, hslash, hmiss⟩
    have hserial : Level serial.val := ⟨hne, hslash⟩
    have hstr := (hsearch hserial).mpr hmiss
    rw [← h.topicText_eq] at hstr
    refine ⟨⟨_, _, _, _, _, _, []⟩, ?_,
      ⟨rfl, rfl, rfl, rfl, rfl, rfl, fun heq => absurd heq hmodel⟩⟩
    unfold receiveTopicV3
    rw [h.cstr_eq, h.publishTopicV3_eq, if_neg (Nat.not_le.mpr h.short)]
    simp only [h.sscanf_common hserial, if_neg hmodel, hparse.mpr hstr]

end RoundTrip

/-- The topic of a message is read back exactly when the serial is one topic level
and either the module is `model`, with a method and a message type that fit the
scan, or its name ends none of the levels before it. -/
theorem topicRoundTrip_iff_parsable {serial : CField 72} {msg : PubmsgV3}
    (h : Printable serial msg) : TopicRoundTrip serial msg ↔ Parsable serial msg := by
  by_cases hmodel : msg.module.val = model
  · exact h.roundTrip_model_iff hmodel
  · exact h.roundTrip_other_iff hmodel

/-- A message of a camera to its firmware module. -/
def sampleMsg : PubmsgV3 where
  msgResponse := false
  msgQos := .t1
  msgSeq := 1
  msgBody := ascii "\x7b\x7d"
  resourceId := .strncpy (.lit "0")
  resourceType := .strncpy (.lit "camera")
  module := .strncpy (.lit "ota")
  method := .strncpy (.lit "upload/result")
  msgType := .strncpy (.lit "report")
  subSerial := .strncpy (.lit "S1")
  extMsg := .strncpy (.lit "")

def sampleSerial : CField 72 := .strncpy (.lit "D1")

theorem sampleMsg_topicRoundTrip : TopicRoundTrip sampleSerial sampleMsg := by
  refine (topicRoundTrip_iff_parsable ⟨⟨?_, ?_⟩, ⟨?_, ?_⟩, ?_, ⟨?_, ?_⟩, ⟨?_, ?_⟩, ?_, ?_,
    ⟨?_, ?_⟩, ?_, ?_, ?_, ?_⟩).mpr ⟨?_, ?_, ?_⟩
  all_goals decide +kernel

/-- The same message from a resource whose type is called like the module. -/
def misledMsg : PubmsgV3 := { sampleMsg with resourceType := .strncpy (.lit "ota") }

theorem misledMsg_not_topicRoundTrip :
    Printable sampleSerial misledMsg ∧ ¬ TopicRoundTrip sampleSerial misledMsg := by
  constructor
  · refine ⟨⟨?_, ?_⟩, ⟨?_, ?_⟩, ?_, ⟨?_, ?_⟩, ⟨?_, ?_⟩, ?_, ?_, ⟨?_, ?_⟩, ?_, ?_, ?_, ?_⟩
    all_goals decide +kernel
  · intro htrip
    rcases htrip with ⟨names, hreceive, hnames⟩
    have hwrong : receiveTopicV3 (publishTopicV3 sampleSerial misledMsg) =
        .ok ⟨ascii "S1", ascii "0", ascii "ota", ascii "ota", ascii "ota/upload/result",
          ascii "report", []⟩ := by rfl
    rw [hwrong] at hreceive
    cases hreceive
    exact absurd hnames.method (by decide)

end EzIot.Das
