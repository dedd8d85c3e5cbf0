import EzIot.Mqtt.Client

/-! # Packets in a stream

The bytes of a socket arrive in pieces of any size. `readPacket` takes one packet from
them, and a sequence of packets is read one after the other, also when the socket is
silent in between.
-/

namespace EzIot.Mqtt

open CText

section Read

variable {H : Type} {c : MqttClient H} {chunks : List Bytes} {events : List SockEvent}

theorem mqttread_pieces (hnet : c.net = pieces chunks events) (hne : ∀ bs ∈ chunks, bs ≠ [])
    {front old got rest : Bytes} (hbuf : c.readbuf = front ++ old) (hlen : got.length ≤ old.length)
    (hpos : got ≠ []) (hflat : chunks.flatten = got ++ rest) :
    ∃ chunks' : List Bytes, (∀ bs ∈ chunks', bs ≠ []) ∧ chunks'.flatten = rest ∧
      mqttread front.length got.length c = some ((got.length : Int), { c with
        net := pieces chunks' events
        readbuf := front ++ (got ++ old.drop got.length) }) := by
  obtain ⟨chunks', hne', hflat', hread⟩ := netRead_pieces hne (List.length_pos_iff.mpr hpos)
    (by rw [hflat, List.length_append]; omega) events
  rw [hflat, List.drop_left] at hflat'
  rw [hflat, List.take_left] at hread
  refine ⟨chunks', hne', hflat', ?_⟩
  unfold mqttread mqttNetRead
  rw [hnet, hread, hbuf]
  simp only [memcpy_behind rfl hlen, Option.map_some]

theorem gives_readByte (events : List SockEvent) (hne : ∀ bs ∈ chunks, bs ≠ []) {field rest : Bytes}
    (hflat : chunks.flatten = field ++ rest) :
    ∃ chunks' : List Bytes, (∀ bs ∈ chunks', bs ≠ []) ∧ chunks'.flatten = rest ∧
      Gives readByte (pieces chunks events) field (pieces chunks' events) := by
  induction field generalizing chunks with
  | nil => exact ⟨chunks, hne, hflat, .nil _⟩
  | cons b field ih =>
      obtain ⟨chunks', hne', hflat', hread⟩ := netRead_pieces hne Nat.one_pos
        (by rw [hflat, List.cons_append, List.length_cons]; omega) events
      rw [hflat] at hflat' hread
      obtain ⟨chunks'', hne'', hflat'', hgives⟩ := ih hne' hflat'
      refine ⟨chunks'', hne'', hflat'', .cons ?_ hgives⟩
      unfold readByte mqttNetRead
      rw [hread]
      rfl

/-- A packet of a client's stream: its header byte, its length and its body. -/
def wirePacket (b : UInt8) (field body : Bytes) : Bytes := b :: (field ++ body)

/-- What the read buffer holds of a packet: its length is written in the shortest way. -/
def kept (b : UInt8) (body : Bytes) : Bytes := b :: (mqttPacketEncode body.length ++ body)

theorem readBody_pieces (hnet : c.net = pieces chunks events) (hne : ∀ bs ∈ chunks, bs ≠ [])
    {front old body rest : Bytes} (hbuf : c.readbuf = front ++ old)
    (hlen : body.length ≤ old.length) (hfront : front ≠ []) (hflat : chunks.flatten = body ++ rest) :
    ∃ chunks' : List Bytes, (∀ bs ∈ chunks', bs ≠ []) ∧ chunks'.flatten = rest ∧
      readBody front.length body.length c =
        some (((MqttHeader.ofByte (front.headD 0)).type : Int), { c with
          net := pieces chunks' events
          readbuf := front ++ (body ++ old.drop body.length) }) := by
  have hhead (tail : Bytes) : (front ++ tail).headD 0 = front.headD 0 := by
    cases front with
    | nil => exact absurd rfl hfront
    | cons x front => rfl
  by_cases hbody : body = []
  · subst hbody
    refine ⟨chunks, hne, hflat, ?_⟩
    have hsame : ({ c with
        net := pieces chunks events
        readbuf := front ++ ([] ++ old.drop ([] : Bytes).length) } : MqttClient H) = c := by
      rw [List.length_nil, List.drop_zero, List.nil_append, ← hnet, ← hbuf]
    rw [hsame, readBody, if_neg (by simp), packetTypeOf, hbuf, hhead]
  · obtain ⟨chunks', hne', hflat', hread⟩ := mqttread_pieces hnet hne hbuf hlen hbody hflat
    refine ⟨chunks', hne', hflat', ?_⟩
    rw [readBody, if_pos (List.length_pos_iff.mpr hbody), hread]
    simp only [Option.bind_eq_bind, Option.bind_some, ne_eq, not_true_eq_false, if_false,
      packetTypeOf, hhead, Option.pure_def]

theorem readPacket_head (hnet : c.net = pieces chunks events) (hne : ∀ bs ∈ chunks, bs ≠ [])
    {b : UInt8} {field rest : Bytes} {n : Nat} (hfield : LengthField field n)
    (hflat : chunks.flatten = b :: (field ++ rest))
    (hroom : 1 + (mqttPacketEncode n).length ≤ c.readbuf.length) :
    ∃ chunks' : List Bytes, (∀ bs ∈ chunks', bs ≠ []) ∧ chunks'.flatten = rest ∧
      ∃ c' : MqttClient H,
        c' = { c with
          net := pieces chunks' events
          readbuf := b :: mqttPacketEncode n ++ c.readbuf.drop (1 + (mqttPacketEncode n).length) } ∧
        readPacket c =
          if n + (1 + (mqttPacketEncode n).length) > c.readbuf.length then some (bufferOverflow, c')
          else readBody (1 + (mqttPacketEncode n).length) n c' := by
  obtain ⟨chunks₁, hne₁, hflat₁, hread₁⟩ := mqttread_pieces hnet hne (List.nil_append _).symm
    (by rw [List.length_singleton]; omega) (List.cons_ne_nil b []) hflat
  obtain ⟨chunks₂, hne₂, hflat₂, hgives⟩ := gives_readByte events hne₁ hflat₁
  have hdecode := mqttPacketDecode_of_gives hfield hgives
  have hlen : (mqttPacketEncode n).length ≤ (c.readbuf.drop 1).length := by
    rw [List.length_drop]
    omega
  have hcopy := memcpy_behind (List.length_singleton (a := b)).symm hlen
  rw [List.drop_drop] at hcopy
  have hsize : ([b] ++ (mqttPacketEncode n ++
      c.readbuf.drop (1 + (mqttPacketEncode n).length))).length = c.readbuf.length := by
    rw [← List.append_assoc]
    exact length_append_drop List.length_append hroom
  refine ⟨chunks₂, hne₂, hflat₂, _, rfl, ?_⟩
  rw [List.length_nil, List.nil_append, List.length_singleton] at hread₁
  unfold readPacket decodePacket
  rw [hread₁]
  simp only [Option.bind_eq_bind, Option.bind_some, ne_eq, hdecode, hcopy, hsize]
  rfl

/-- The first packet of a stream is read if there is room for it. -/
theorem readPacket_pieces (hnet : c.net = pieces chunks events) (hne : ∀ bs ∈ chunks, bs ≠ [])
    {b : UInt8} {field body rest : Bytes} (hfield : LengthField field body.length)
    (hflat : chunks.flatten = wirePacket b field body ++ rest)
    (hroom : (kept b body).length ≤ c.readbuf.length) :
    ∃ chunks' : List Bytes, (∀ bs ∈ chunks', bs ≠ []) ∧ chunks'.flatten = rest ∧
      readPacket c = some (((MqttHeader.ofByte b).type : Int), { c with
        net := pieces chunks' events
        readbuf := kept b body ++ c.readbuf.drop (kept b body).length }) := by
  have hkept : (kept b body).length = 1 + (mqttPacketEncode body.length).length + body.length := by
    rw [kept, List.length_cons, List.length_append]
    omega
  have hwhole : chunks.flatten = b :: (field ++ (body ++ rest)) := by
    rw [hflat, wirePacket, List.cons_append, List.append_assoc]
  obtain ⟨chunks₁, hne₁, hflat₁, c₁, hc₁, hhead⟩ := readPacket_head hnet hne hfield hwhole (by omega)
  have hnet₁ : c₁.net = pieces chunks₁ events := by rw [hc₁]
  have hbuf₁ : c₁.readbuf = b :: mqttPacketEncode body.length ++
      c.readbuf.drop (1 + (mqttPacketEncode body.length).length) := by rw [hc₁]
  have hspace : body.length ≤
      (c.readbuf.drop (1 + (mqttPacketEncode body.length).length)).length := by
    rw [List.length_drop]
    omega
  obtain ⟨chunks', hne', hflat', hread⟩ := readBody_pieces hnet₁ hne₁ hbuf₁ hspace
    (List.cons_ne_nil b (mqttPacketEncode body.length)) hflat₁
  refine ⟨chunks', hne', hflat', ?_⟩
  have hbuf : b :: mqttPacketEncode body.length ++
      (body ++ (c.readbuf.drop (1 + (mqttPacketEncode body.length).length)).drop body.length) =
        kept b body ++ c.readbuf.drop (kept b body).length := by
    rw [List.drop_drop, hkept, kept]
    simp only [List.cons_append, List.append_assoc]
  rw [List.length_cons, Nat.add_comm, hbuf] at hread
  rw [hhead, if_neg (by omega), hread, hc₁]
  rfl

end Read

end EzIot.Mqtt
