import EzIot.Lbs.Credentials

/-! # The members of the server info

`json_parse_das_server_info` fetches five members of `DasInfo` and then tests them for
absence. The list of these tests names `ServerID` twice and `Address` not at all.
-/

namespace EzIot.Lbs

open CText CJson Kernel Program

/-- A text whose `Type` is `DAS`, with the item for `DasInfo`. -/
structure DasText (mem : Bytes) (info : Value) : Prop where
  parsed : ∃ root, cJSONParse mem = some root ∧
    root.getObjectItem (ascii "Type") = some (.string (ascii "DAS")) ∧
    root.getObjectItem (ascii "DasInfo") = some info

/-- The members that are tested have the types they are read as. -/
structure TestedMembers (info : Value) (port udpPort : Dbl) (serverid domain : Bytes) : Prop where
  port : info.getObjectItem (ascii "Port") = some (.number port)
  udpPort : info.getObjectItem (ascii "UdpPort") = some (.number udpPort)
  serverid : info.getObjectItem (ascii "ServerID") = some (.string serverid)
  domain : info.getObjectItem (ascii "Domain") = some (.string domain)

/-- The text is well formed except that it has no `Address`. -/
def AddressMissing (mem : Bytes) : Prop :=
  ∃ info port udpPort serverid domain, DasText mem info ∧
    TestedMembers info port udpPort serverid domain ∧
      info.getObjectItem (ascii "Address") = none

/-- All that is read is there, with its type, and this is what is written. -/
def ReadsMembers (mem : Bytes) (das : DasInfo) : Prop :=
  ∃ info port udpPort serverid domain address, DasText mem info ∧
    TestedMembers info port udpPort serverid domain ∧
    info.getObjectItem (ascii "Address") = some (.string address) ∧
    das = ⟨UInt16.ofInt port.valueint, UInt16.ofInt udpPort.valueint,
      .strncpy (.ofMem address), .strncpy (.ofMem domain), .strncpy (.ofMem serverid)⟩

/-- What can be said of the members when the parser does not return an error. -/
theorem jsonParseDasServerInfo_cases (mem : Bytes) :
    (∃ e, jsonParseDasServerInfo mem = .error (.code e)) ∨
      (jsonParseDasServerInfo mem = .error .fault ∧ AddressMissing mem) ∨
      ∃ das, jsonParseDasServerInfo mem = .ok das ∧ ReadsMembers mem das := by
  unfold jsonParseDasServerInfo
  split
  · exact .inl ⟨_, rfl⟩
  · next root hroot =>
      split
      · next type htype =>
          split
          · exact .inl ⟨_, rfl⟩
          · next hdas =>
              split
              · exact .inl ⟨_, rfl⟩
              · next info hinfo =>
                  have hdasText : DasText mem info :=
                    ⟨root, hroot, by rw [htype, not_not.mp hdas], hinfo⟩
                  split
                  · next port udpPort serverid domain hport hudp hserver hdomain =>
                      have hmembers : TestedMembers info port udpPort serverid domain :=
                        ⟨hport, hudp, hserver, hdomain⟩
                      split
                      · next hnone =>
                          exact .inr (.inl ⟨rfl, info, port, udpPort, serverid, domain,
                            hdasText, hmembers, hnone⟩)
                      · next address haddress =>
                          split
                          · exact .inl ⟨_, rfl⟩
                          · split
                            · exact .inl ⟨_, rfl⟩
                            · split
                              · exact .inl ⟨_, rfl⟩
                              · exact .inr (.inr ⟨_, rfl, info, port, udpPort, serverid, domain,
                                  address, hdasText, hmembers, haddress, rfl⟩)
                      · exact .inl ⟨_, rfl⟩
                  · exact .inl ⟨_, rfl⟩
      · exact .inl ⟨_, rfl⟩

theorem jsonParseDasServerInfo_fault {mem : Bytes} (h : AddressMissing mem) :
    jsonParseDasServerInfo mem = .error .fault := by
  rcases h with ⟨info, port, udpPort, serverid, domain, ⟨root, hroot, htype, hinfo⟩, hmembers, hnone⟩
  unfold jsonParseDasServerInfo
  simp only [hroot, htype, hinfo, hmembers.port, hmembers.udpPort, hmembers.serverid,
    hmembers.domain, hnone, ne_eq, not_true_eq_false, if_false]

/-- The parser returns an error, or a record of members that were all there. -/
def ParsesSafely (mem : Bytes) : Prop :=
  (∃ e, jsonParseDasServerInfo mem = .error (.code e)) ∨
    ∃ das, jsonParseDasServerInfo mem = .ok das ∧ ReadsMembers mem das

theorem parsesSafely_iff (mem : Bytes) : ParsesSafely mem ↔ ¬ AddressMissing mem := by
  constructor
  · intro h hmissing
    have hfault := jsonParseDasServerInfo_fault hmissing
    rcases h with ⟨e, he⟩ | ⟨das, hdas, _⟩
    · rw [hfault] at he
      cases he
    · rw [hfault] at hdas
      cases hdas
  · intro h
    rcases jsonParseDasServerInfo_cases mem with herror | ⟨_, hmissing⟩ | hok
    · exact .inl herror
    · exact absurd hmissing h
    · exact .inr hok

/-- An error of the parser ends the handshake before `save_das_info`. -/
theorem finishRedirect_error_unsaved {c : Crypto} {s t : Session} {e : Stop}
    (h : finishRedirect c s = (.error e, t)) :
    t.kernel.redirectDasInfo = s.kernel.redirectDasInfo ∧ t.saved = s.saved := by
  have hscratch := finishRedirect_stopsWithin c s e t h
  have hinfo : (fixed t.kernel).redirectDasInfo = (fixed s.kernel).redirectDasInfo :=
    congrArg SdkKernel.redirectDasInfo hscratch.kernel
  exact ⟨hinfo, hscratch.saved⟩

theorem server_info_safe_iff (mem : Bytes) :
    (ParsesSafely mem ∧ ∀ (c : Crypto) (s t : Session) (e : Stop),
      finishRedirect c s = (.error e, t) →
        t.kernel.redirectDasInfo = s.kernel.redirectDasInfo ∧ t.saved = s.saved) ↔
    ¬ AddressMissing mem := by
  rw [parsesSafely_iff]
  constructor
  · intro h
    exact h.1
  · intro h
    exact ⟨h, fun c s t e hrun => finishRedirect_error_unsaved hrun⟩

/-- A server without an address. -/
def addressless : Bytes :=
  ascii ("\x7b\"Type\":\"DAS\",\"DasInfo\":\x7b\"Port\":1,\"UdpPort\":2," ++
    "\"Domain\":\"d\",\"ServerID\":\"s\"\x7d\x7d")

theorem addressless_not_safe : ¬ ParsesSafely addressless := by
  have hfault : jsonParseDasServerInfo addressless = .error .fault := by decide +kernel
  intro h
  rcases h with ⟨e, he⟩ | ⟨das, hdas, _⟩
  · rw [hfault] at he
    cases he
  · rw [hfault] at hdas
    cases hdas

end EzIot.Lbs
