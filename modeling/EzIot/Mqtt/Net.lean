import EzIot.Mqtt.Packet

/-! # The socket below the client

`net_read` and `net_write` of `net_module.c` with the functions `MQTTNet_read` and
`MQTTNet_write` over them. The events of a socket are the pieces in which bytes arrive and
the calls that do not get through.
-/

namespace EzIot.Mqtt

open CText

/-- What the next `ezos_poll` and `ezos_recv` find. -/
inductive SockEvent
  | data (bs : Bytes)
  | timeout
  | error
  | closed
deriving DecidableEq

inductive NetError
  | socketError
  | socketTimeout
  | socketClosed
deriving DecidableEq

/-- `net_read` of `want` bytes: the result, the bytes it has put into the buffer, and what
is still to come. After the last event nothing arrives any more. -/
def netRead (want : Nat) : List SockEvent → Except NetError Unit × Bytes × List SockEvent
  | [] => (.error .socketTimeout, [], [])
  | .timeout :: events => (.error .socketTimeout, [], events)
  | .error :: events => (.error .socketError, [], events)
  | .closed :: events => (.error .socketClosed, [], .closed :: events)
  | .data bs :: events =>
      if bs = [] then (.error .socketClosed, [], events)
      else if want < bs.length then (.ok (), bs.take want, .data (bs.drop want) :: events)
      else if want = bs.length then (.ok (), bs, events)
      else
        let (result, more, events) := netRead (want - bs.length) events
        (result, bs ++ more, events)

def mqttNetRead (len : Nat) (events : List SockEvent) : Int × Bytes × List SockEvent :=
  match netRead len events with
  | (.ok _, got, events) => (len, got, events)
  | (.error _, got, events) => (0, got, events)

inductive SendEvent
  | sent (n : Nat)
  | timeout
  | error
deriving DecidableEq

/-- `net_write`: the number of bytes that were sent. A socket takes no more than it is given,
and all of it when nothing else is to happen. -/
def netWrite (len : Nat) : List SendEvent → Except NetError Nat × List SendEvent
  | [] => (.ok len, [])
  | .timeout :: events => (.error .socketTimeout, events)
  | .error :: events => (.error .socketError, events)
  | .sent n :: events => (.ok (min n len), events)

def mqttNetWrite (len : Nat) (events : List SendEvent) : Int × List SendEvent :=
  match netWrite len events with
  | (.ok n, events) => (n, events)
  | (.error _, events) => (-1, events)

/-! ## Bytes in pieces -/

/-- Bytes that arrive in pieces before other events. -/
def pieces (chunks : List Bytes) (events : List SockEvent) : List SockEvent :=
  chunks.map .data ++ events

/-- However the bytes are cut into pieces, the next ones are read. -/
theorem netRead_pieces {chunks : List Bytes} (hne : ∀ bs ∈ chunks, bs ≠ []) {want : Nat}
    (hpos : 0 < want) (hwant : want ≤ chunks.flatten.length) (events : List SockEvent) :
    ∃ chunks' : List Bytes, (∀ bs ∈ chunks', bs ≠ []) ∧
      chunks'.flatten = chunks.flatten.drop want ∧
      netRead want (pieces chunks events) =
        (.ok (), chunks.flatten.take want, pieces chunks' events) := by
  induction chunks generalizing want with
  | nil =>
      simp at hwant
      omega
  | cons bs chunks ih =>
      have hbs := hne bs List.mem_cons_self
      have hrest (b) (hb : b ∈ chunks) : b ≠ [] := hne b (List.mem_cons_of_mem bs hb)
      rw [List.flatten_cons, List.length_append] at hwant
      rcases Nat.lt_trichotomy want bs.length with hlt | heq | hgt
      · refine ⟨bs.drop want :: chunks, ?_, ?_, ?_⟩
        · intro b hb
          rcases List.mem_cons.mp hb with rfl | hb
          · exact List.ne_nil_of_length_pos (by rw [List.length_drop]; omega)
          · exact hrest b hb
        · rw [List.flatten_cons, List.flatten_cons, List.drop_append_of_le_length (by omega)]
        · simp only [pieces, List.map_cons, List.cons_append, netRead, hbs, if_false, hlt, if_true,
            List.flatten_cons, List.take_append_of_le_length (Nat.le_of_lt hlt)]
      · refine ⟨chunks, hrest, ?_, ?_⟩
        · rw [List.flatten_cons, heq, List.drop_left]
        · simp only [pieces, List.map_cons, List.cons_append, netRead, hbs, if_false, heq,
            Nat.lt_irrefl, if_true, List.flatten_cons, List.take_left]
      · obtain ⟨k, rfl⟩ : ∃ k, want = bs.length + k := ⟨want - bs.length, by omega⟩
        have hk : 0 < k := by omega
        obtain ⟨chunks', hne', hflat, hread⟩ := ih hrest hk (by omega)
        refine ⟨chunks', hne', ?_, ?_⟩
        · rw [hflat, List.flatten_cons, List.drop_length_add_append]
        · have hnot : ¬ bs.length + k < bs.length ∧ ¬ bs.length + k = bs.length := by omega
          rw [pieces] at hread
          simp only [pieces, List.map_cons, List.cons_append, netRead, hbs, if_false, hnot,
            Nat.add_sub_cancel_left, hread, List.flatten_cons, List.take_length_add_append]

end EzIot.Mqtt
