import EzIot.Access.Machine
import EzIot.Lbs.AuthType
import EzIot.Lib.Run

/-! # Counters and states of the access layer

The counters of the redirects and of the retries are shared by the four states, and
commands and stops change the state without them. They stay bounded, and the address
that a registration goes to is always the one of the last redirect.
-/

namespace EzIot.Access

open CText Kernel Lbs Program

/-! ## What the marks say -/

/-- What has happened since the last redirect and since the connection was lost. -/
structure History where
  granted : Option DasInfo
  sourced : Bool
  regs : Nat
  lightRegs : Nat
  answered : Bool

def History.step (h : History) : Mark → History
  | .event .reconnect => { h with answered := true }
  | .event .break => { h with answered := true }
  | .event _ => h
  | .lbsRedirect info => { h with granted := some info, regs := 0 }
  | .dasReg info =>
      { h with sourced := h.sourced && decide (h.granted = some info), regs := h.regs + 1 }
  | .dasLightRegV2 info => { h with sourced := h.sourced && decide (h.granted = some info) }
  | .dasLightReg info =>
      { h with
        sourced := h.sourced && decide (h.granted = some info)
        lightRegs := h.lightRegs + 1
        answered := false }
  | .lost => { h with lightRegs := 0 }
  | .command _ => h

/-- `granted` is the address of the last redirect; `sourced`: every registration went to
the address of the last redirect before it; `regs`: the registrations since then;
`lightRegs`: the light registrations since the connection was lost; `answered`: the
last of them was followed by an event. -/
def history : List Mark → History
  | [] => ⟨none, true, 0, 0, true⟩
  | m :: ms => (history ms).step m

/-! ## Messages -/

structure Delivered (a a' : Link) : Prop where
  lbsRedirectTimes : a'.kernel.lbsRedirectTimes = a.kernel.lbsRedirectTimes
  dasRetryTimes : a'.kernel.dasRetryTimes = a.kernel.dasRetryTimes
  redirectDasInfo : a'.kernel.redirectDasInfo = a.kernel.redirectDasInfo
  devId : a'.kernel.devId = a.kernel.devId
  commands : ∃ names : List (CField 64), a'.marks = names.map .command ++ a.marks ∧
    (names = [] → a'.kernel.cntState = a.kernel.cntState ∧
      a'.kernel.entrState = a.kernel.entrState ∧ a'.kernel.masterKey = a.kernel.masterKey) ∧
    (names ≠ [] → a'.kernel.cntState = sdkCntUnredirect ∧ a'.kernel.entrState = .switchover ∧
      a'.kernel.masterKey = List.replicate 16 0)

theorem Delivered.rfl {a : Link} : Delivered a a :=
  ⟨Eq.refl _, Eq.refl _, Eq.refl _, Eq.refl _, [], Eq.refl _, fun _ => ⟨Eq.refl _, Eq.refl _, Eq.refl _⟩,
    fun h => absurd (Eq.refl _) h⟩

theorem Delivered.trans {a b c : Link} (h : Delivered a b) (h' : Delivered b c) :
    Delivered a c := by
  obtain ⟨names, hmarks, hnone, hsome⟩ := h.commands
  obtain ⟨names', hmarks', hnone', hsome'⟩ := h'.commands
  refine ⟨h'.lbsRedirectTimes.trans h.lbsRedirectTimes, h'.dasRetryTimes.trans h.dasRetryTimes,
    h'.redirectDasInfo.trans h.redirectDasInfo, h'.devId.trans h.devId, names' ++ names, ?_, ?_, ?_⟩
  · rw [hmarks', hmarks, List.map_append, List.append_assoc]
  · intro hnil
    obtain ⟨hnil', hnil⟩ := List.append_eq_nil_iff.mp hnil
    obtain ⟨hc, he, hm⟩ := hnone hnil
    obtain ⟨hc', he', hm'⟩ := hnone' hnil'
    exact ⟨hc'.trans hc, he'.trans he, hm'.trans hm⟩
  · intro hne
    by_cases hnil' : names' = []
    · have hne' : names ≠ [] := by
        intro hnil
        exact hne (by rw [hnil', hnil]; rfl)
      obtain ⟨hc, he, hm⟩ := hsome hne'
      obtain ⟨hc', he', hm'⟩ := hnone' hnil'
      exact ⟨hc'.trans hc, he'.trans he, hm'.trans hm⟩
    · exact hsome' hnil'

/-- A message without a redirect. -/
theorem delivered_of_update {a : Link} {f : SdkKernel → SdkKernel}
    (h : ∀ k, (f k).lbsRedirectTimes = k.lbsRedirectTimes ∧ (f k).dasRetryTimes = k.dasRetryTimes ∧
      (f k).redirectDasInfo = k.redirectDasInfo ∧ (f k).devId = k.devId ∧
      (f k).cntState = k.cntState ∧ (f k).entrState = k.entrState ∧
      (f k).masterKey = k.masterKey) : Delivered a (a.update f) := by
  obtain ⟨hl, hr, hi, hd, hrest⟩ := h a.kernel
  exact ⟨hl, hr, hi, hd, [], rfl, fun _ => hrest, fun hne => absurd rfl hne⟩

theorem busHandleDomainconfig_eq (buf : Option Bytes) (k : SdkKernel) :
    ∃ interval, busHandleDomainconfig buf k = { k with dasKeepaliveInterval := interval } := by
  unfold busHandleDomainconfig
  repeat' split
  all_goals exact ⟨_, rfl⟩

theorem accessDomainBusHandle_delivered (a : Link) (m : Submsg) :
    Delivered a (accessDomainBusHandle a m) := by
  cases m with
  | domainConfig buf =>
      refine delivered_of_update fun k => ?_
      obtain ⟨interval, heq⟩ := busHandleDomainconfig_eq buf k
      rw [heq]
      exact ⟨rfl, rfl, rfl, rfl, rfl, rfl, rfl⟩
  | riskConfig => exact .rfl
  | offline => exact delivered_of_update fun k => ⟨rfl, rfl, rfl, rfl, rfl, rfl, rfl⟩
  | setLbsDomainName name =>
      simp only [accessDomainBusHandle, busHandleDevRedirect]
      split
      · exact .rfl
      · split
        · exact .rfl
        · rename_i name _
          exact ⟨rfl, rfl, rfl, rfl, [name], rfl, fun hnil => absurd hnil (by simp),
            fun _ => ⟨rfl, rfl, rfl⟩⟩
  | other => exact .rfl

theorem deliver_delivered (msgs : List Submsg) (a : Link) : Delivered a (deliver msgs a) := by
  induction msgs generalizing a with
  | nil => exact .rfl
  | cons m msgs ih => exact (accessDomainBusHandle_delivered a m).trans (ih _)

theorem history_commands (names : List (CField 64)) (ms : List Mark) :
    history (names.map .command ++ ms) = history ms := by
  induction names with
  | nil => rfl
  | cons name names ih => exact ih

theorem Delivered.history_eq {a a' : Link} (h : Delivered a a') :
    history a'.marks = history a.marks := by
  obtain ⟨names, hmarks, -⟩ := h.commands
  rw [hmarks, history_commands]

theorem Delivered.cntState {a a' : Link} (h : Delivered a a') :
    a'.kernel.cntState = a.kernel.cntState ∨ a'.kernel.cntState = sdkCntUnredirect := by
  obtain ⟨names, -, hnone, hsome⟩ := h.commands
  by_cases hnil : names = []
  · exact .inl (hnone hnil).1
  · exact .inr (hsome hnil).1

/-! ## Calls of the DAS -/

theorem dasMqttlogin2das_delivered (l : Login) (a : Link) :
    Delivered a (dasMqttlogin2das l a).2 := by
  simp only [dasMqttlogin2das]
  repeat' split
  · exact .rfl
  · exact .rfl
  · exact .rfl
  · exact deliver_delivered _ _

theorem loginAndSubscribe_delivered (l : Login) (s : Subscription) (a : Link) :
    Delivered a (loginAndSubscribe l s a).2 := by
  simp only [loginAndSubscribe]
  split
  · exact (dasMqttlogin2das_delivered l a).trans (deliver_delivered _ _)
  · exact dasMqttlogin2das_delivered l a

/-- What a registration does before its result is looked at. -/
structure Registering (a a' : Link) : Prop where
  lbsRedirectTimes : a'.kernel.lbsRedirectTimes = a.kernel.lbsRedirectTimes
  dasRetryTimes : a'.kernel.dasRetryTimes = a.kernel.dasRetryTimes
  redirectDasInfo : a'.kernel.redirectDasInfo = a.kernel.redirectDasInfo
  cntState : a'.kernel.cntState = a.kernel.cntState ∨ a'.kernel.cntState = sdkCntUnredirect
  history_eq : history a'.marks = (history a.marks).step (.dasReg a.kernel.redirectDasInfo)

theorem History.step_fast (h : History) (info : DasInfo) :
    (h.step (.dasReg info)).step (.dasLightRegV2 info) = h.step (.dasReg info) := by
  simp only [History.step]
  by_cases hinfo : h.granted = some info
  · simp [hinfo]
  · simp [hinfo]

theorem Registering.delivered {a b c : Link} (h : Registering a b) (h' : Delivered b c) :
    Registering a c := by
  refine ⟨h'.lbsRedirectTimes.trans h.lbsRedirectTimes, h'.dasRetryTimes.trans h.dasRetryTimes,
    h'.redirectDasInfo.trans h.redirectDasInfo, ?_, h'.history_eq.trans h.history_eq⟩
  rcases h'.cntState with hsame | hsame
  · rcases h.cntState with hfirst | hfirst
    · exact .inl (hsame.trans hfirst)
    · exact .inr (hsame.trans hfirst)
  · exact .inr hsame

/-- The second login goes to the same address. -/
theorem Registering.fast {a b : Link} (h : Registering a b) :
    Registering a (b.mark (.dasLightRegV2 b.kernel.redirectDasInfo)) := by
  refine ⟨h.lbsRedirectTimes, h.dasRetryTimes, h.redirectDasInfo, h.cntState, ?_⟩
  show (history b.marks).step _ = _
  rw [h.history_eq, h.redirectDasInfo, History.step_fast]

theorem register_registering (i : Input) (a : Link) : Registering a (register i a).2 := by
  have hunreg := deliver_delivered i.unregMsgs a
  have hmarked : Registering a ((dasUnreg i.unregMsgs a).mark
      (.dasReg (dasUnreg i.unregMsgs a).kernel.redirectDasInfo)) := by
    refine ⟨hunreg.lbsRedirectTimes, hunreg.dasRetryTimes, hunreg.redirectDasInfo,
      hunreg.cntState, ?_⟩
    show (history (dasUnreg i.unregMsgs a).marks).step _ = _
    rw [dasUnreg, hunreg.history_eq, hunreg.redirectDasInfo]
  have hfirst := hmarked.delivered (loginAndSubscribe_delivered i.login i.subscription _)
  simp only [register]
  split
  · exact hfirst.fast.delivered (loginAndSubscribe_delivered _ _ _)
  · exact hfirst

/-! ## The invariant -/

inductive Phase (k : SdkKernel) (h : History) : Prop
  | unredirect (state : k.cntState = sdkCntUnredirect) (lbs : k.lbsRedirectTimes.toNat ≤ 60)
      (das : k.dasRetryTimes.toNat ≤ 5)
  | redirected (state : k.cntState = sdkCntRedirected) (lbs : k.lbsRedirectTimes = 0)
      (das : k.dasRetryTimes.toNat ≤ 5) (info : h.granted = some k.redirectDasInfo)
      (regs : h.regs = k.dasRetryTimes.toNat)
  | dasReged (state : k.cntState = sdkCntDasReged) (lbs : k.lbsRedirectTimes = 0)
      (das : k.dasRetryTimes = 0) (info : h.granted = some k.redirectDasInfo)
  | dasBreak (state : k.cntState = sdkCntDasBreak) (lbs : k.lbsRedirectTimes = 0)
      (das : k.dasRetryTimes.toNat ≤ 3) (info : h.granted = some k.redirectDasInfo)
      (lightRegs : h.lightRegs = k.dasRetryTimes.toNat)

structure Recorded (h : History) : Prop where
  sourced : h.sourced = true
  regs : h.regs ≤ 6
  lightRegs : h.lightRegs ≤ 4
  exhausted : h.lightRegs = 4 → h.answered = true

structure Inv (a : Link) : Prop where
  phase : Phase a.kernel (history a.marks)
  recorded : Recorded (history a.marks)

theorem Phase.lbs_le {k : SdkKernel} {h : History} (p : Phase k h) :
    k.lbsRedirectTimes.toNat ≤ 60 := by
  cases p with
  | unredirect _ lbs _ => exact lbs
  | redirected _ lbs => simp [lbs]
  | dasReged _ lbs => simp [lbs]
  | dasBreak _ lbs => simp [lbs]

theorem Phase.das_le {k : SdkKernel} {h : History} (p : Phase k h) :
    k.dasRetryTimes.toNat ≤ 5 := by
  cases p with
  | unredirect _ _ das => exact das
  | redirected _ _ das => exact das
  | dasReged _ _ das => simp [das]
  | dasBreak _ _ das => omega

theorem Inv.delivered {a a' : Link} (hinv : Inv a) (h : Delivered a a') : Inv a' := by
  have hrecorded : Recorded (history a'.marks) := by
    rw [h.history_eq]
    exact hinv.recorded
  refine ⟨?_, hrecorded⟩
  obtain ⟨phase, -⟩ := hinv
  rw [h.history_eq]
  rcases h.cntState with hsame | hsame
  · cases phase with
    | unredirect state lbs das =>
        exact .unredirect (hsame.trans state) (by rwa [h.lbsRedirectTimes])
          (by rwa [h.dasRetryTimes])
    | redirected state lbs das info regs =>
        exact .redirected (hsame.trans state) (by rwa [h.lbsRedirectTimes])
          (by rwa [h.dasRetryTimes]) (by rwa [h.redirectDasInfo]) (by rwa [h.dasRetryTimes])
    | dasReged state lbs das info =>
        exact .dasReged (hsame.trans state) (by rwa [h.lbsRedirectTimes])
          (by rwa [h.dasRetryTimes]) (by rwa [h.redirectDasInfo])
    | dasBreak state lbs das info lightRegs =>
        exact .dasBreak (hsame.trans state) (by rwa [h.lbsRedirectTimes])
          (by rwa [h.dasRetryTimes]) (by rwa [h.redirectDasInfo]) (by rwa [h.dasRetryTimes])
  · refine .unredirect hsame ?_ ?_
    · rw [h.lbsRedirectTimes]
      exact phase.lbs_le
    · rw [h.dasRetryTimes]
      exact phase.das_le

theorem unredirect_of_enter (k : SdkKernel) (h : History) :
    Phase (enter sdkCntUnredirect k) h := .unredirect rfl (Nat.zero_le _) (Nat.zero_le _)

theorem breakOff_inv {a : Link} (hsourced : (history a.marks).sourced = true)
    (hregs : (history a.marks).regs ≤ 6) (hlight : (history a.marks).lightRegs ≤ 4) :
    Inv (breakOff a) :=
  ⟨unredirect_of_enter _ _, hsourced, hregs, hlight, fun _ => rfl⟩

theorem react_inv {r : Nat × Link} (h : Inv r.2) : Inv (react r).2 := by
  simp only [react]
  split
  · obtain ⟨phase, recorded⟩ := h
    refine ⟨?_, recorded⟩
    cases phase with
    | unredirect state lbs das => exact .unredirect state lbs das
    | redirected state lbs das info regs => exact .redirected state lbs das info regs
    | dasReged state lbs das info => exact .dasReged state lbs das info
    | dasBreak state lbs das info lightRegs => exact .dasBreak state lbs das info lightRegs
  · split
    · exact breakOff_inv h.recorded.sourced h.recorded.regs h.recorded.lightRegs
    · exact h

/-! ## One step -/

theorem nextLbsRedirectTimes_le (e : Nat) (times : UInt8) :
    (nextLbsRedirectTimes e times).toNat ≤ 60 := by
  simp only [nextLbsRedirectTimes]
  split
  · decide
  · split
    · decide
    · rename_i hle
      have hlt : times + 1 < 60 := UInt8.not_le.mp hle
      exact Nat.le_of_lt (UInt8.lt_iff_toNat_lt.mp hlt)

theorem cntLbsRedirectDo_inv {i : Input} {a : Link} {r : Nat × Link} (hinv : Inv a)
    (hstate : a.kernel.cntState = sdkCntUnredirect) (h : cntLbsRedirectDo i a = some r) :
    Inv r.2 := by
  simp only [cntLbsRedirectDo] at h
  split at h
  · cases h
    exact hinv
  · have houtside := cntStateLbsRedirect_outside (c := i.crypto) ⟨a.kernel, i.affair, i.world, []⟩
    split at h
    · cases h
      obtain ⟨hsourced, -, hlight, hexhausted⟩ := hinv.recorded
      exact ⟨.redirected rfl rfl (Nat.zero_le _) rfl rfl, hsourced, Nat.zero_le _, hlight,
        hexhausted⟩
    · rename_i e s heq
      cases h
      rw [heq] at houtside
      have hcnt : s.kernel.cntState = a.kernel.cntState :=
        (congrArg SdkKernel.cntState houtside :)
      have hdas : s.kernel.dasRetryTimes = a.kernel.dasRetryTimes :=
        (congrArg SdkKernel.dasRetryTimes houtside :)
      refine ⟨.unredirect (hcnt.trans hstate) (nextLbsRedirectTimes_le e _) ?_, hinv.recorded⟩
      show s.kernel.dasRetryTimes.toNat ≤ 5
      rw [hdas]
      exact hinv.phase.das_le
    · cases h

theorem retry_toNat {times : UInt8} {limit : UInt8} (h : ¬ limit ≤ times) :
    (times + 1).toNat = times.toNat + 1 := by
  have hlt : times.toNat < limit.toNat := UInt8.lt_iff_toNat_lt.mp (UInt8.not_le.mp h)
  have hmax := limit.toNat_lt
  rw [UInt8.toNat_add]
  exact Nat.mod_eq_of_lt (by simpa using by omega)

theorem registered_inv {a : Link} (hinfo : (history a.marks).granted = some a.kernel.redirectDasInfo)
    (h : Recorded (history a.marks)) : Inv (registered a) := by
  simp only [registered]
  split
  · exact ⟨.dasReged rfl rfl rfl hinfo, h⟩
  · exact ⟨.dasReged rfl rfl rfl hinfo, h⟩

theorem cntDasRegDo_inv {a : Link} (i : Input) (hinv : Inv a)
    (hstate : a.kernel.cntState = sdkCntRedirected) : Inv (cntDasRegDo i a).2 := by
  simp only [cntDasRegDo]
  split
  · exact hinv
  · have hreg := register_registering i a
    obtain ⟨phase, hsourced, hregs, hlight, hexhausted⟩ := hinv
    cases phase with
    | unredirect state => exact absurd (state.symm.trans hstate) (by decide)
    | dasReged state => exact absurd (state.symm.trans hstate) (by decide)
    | dasBreak state => exact absurd (state.symm.trans hstate) (by decide)
    | redirected state lbs das info regs =>
        have hrecorded : Recorded (history (register i a).2.marks) := by
          rw [hreg.history_eq]
          refine ⟨by simp [History.step, hsourced, info], ?_, hlight, hexhausted⟩
          show (history a.marks).regs + 1 ≤ 6
          omega
        have hgranted : (history (register i a).2.marks).granted =
            some (register i a).2.kernel.redirectDasInfo := by
          rw [hreg.history_eq, hreg.redirectDasInfo]
          exact info
        split
        · exact registered_inv hgranted hrecorded
        · simp only [countRetry]
          split
          · exact ⟨unredirect_of_enter _ _, hrecorded⟩
          · rename_i hlimit
            have hcount := retry_toNat hlimit
            have hdas : (register i a).2.kernel.dasRetryTimes.toNat < 5 :=
              UInt8.lt_iff_toNat_lt.mp (UInt8.not_le.mp hlimit)
            have hlbs : (register i a).2.kernel.lbsRedirectTimes = 0 :=
              hreg.lbsRedirectTimes.trans lbs
            refine ⟨?_, hrecorded⟩
            rcases hreg.cntState with hsame | hsame
            · refine .redirected (hsame.trans hstate) hlbs ?_ hgranted ?_
              · show ((register i a).2.kernel.dasRetryTimes + 1).toNat ≤ 5
                omega
              · show (history (register i a).2.marks).regs =
                  ((register i a).2.kernel.dasRetryTimes + 1).toNat
                rw [hcount, hreg.history_eq, hreg.dasRetryTimes]
                exact congrArg (· + 1) regs
            · refine .unredirect hsame ?_ ?_
              · show (register i a).2.kernel.lbsRedirectTimes.toNat ≤ 60
                simp [hlbs]
              · show ((register i a).2.kernel.dasRetryTimes + 1).toNat ≤ 5
                omega

theorem dasYield_delivered (y : DasWork) (a : Link) :
    ∃ b, Delivered a b ∧
      ((dasYield y a) = (Code.dasNeedReconnect, b) ∨ (dasYield y a) = (Code.succ, b) ∨
        (dasYield y a) = (Code.succ, b.mark (.event .publishAck))) := by
  have hfirst := deliver_delivered y.msgs a
  have hsecond := hfirst.trans (deliver_delivered y.sendMsgs _)
  simp only [dasYield]
  split
  · exact ⟨_, hfirst, .inl rfl⟩
  · split
    · exact ⟨_, hfirst, .inl rfl⟩
    · split
      · exact ⟨_, hsecond, .inl rfl⟩
      · split
        · exact ⟨_, hsecond, .inr (.inr rfl)⟩
        · exact ⟨_, hsecond, .inr (.inl rfl)⟩

theorem cntDasWorkDo_inv {a : Link} (i : Input) (hinv : Inv a)
    (hstate : a.kernel.cntState = sdkCntDasReged) : Inv (cntDasWorkDo i a).2 := by
  obtain ⟨b, hdelivered, hyield⟩ := dasYield_delivered i.work a
  have hb := hinv.delivered hdelivered
  simp only [cntDasWorkDo]
  rcases hyield with heq | heq | heq
  · rw [heq, if_pos rfl]
    -- the counters come from the registration, whatever the messages did to the state
    obtain ⟨phase, hsourced, hregs, hlight, hexhausted⟩ := hinv
    cases phase with
    | unredirect state => exact absurd (state.symm.trans hstate) (by decide)
    | redirected state => exact absurd (state.symm.trans hstate) (by decide)
    | dasBreak state => exact absurd (state.symm.trans hstate) (by decide)
    | dasReged state lbs das info =>
        have hlbs : b.kernel.lbsRedirectTimes = 0 := hdelivered.lbsRedirectTimes.trans lbs
        have hdas : b.kernel.dasRetryTimes = 0 := hdelivered.dasRetryTimes.trans das
        refine ⟨.dasBreak rfl hlbs ?_ ?_ ?_, ?_, ?_, Nat.zero_le _, fun h => nomatch h⟩
        · show b.kernel.dasRetryTimes.toNat ≤ 3
          simp [hdas]
        · show (history b.marks).granted = some b.kernel.redirectDasInfo
          rw [hdelivered.history_eq, hdelivered.redirectDasInfo, info]
        · show 0 = b.kernel.dasRetryTimes.toNat
          simp [hdas]
        · exact hb.recorded.sourced
        · exact hb.recorded.regs
  · rw [heq, if_neg (show Code.succ ≠ Code.dasNeedReconnect by decide)]
    exact hb
  · rw [heq, if_neg (show Code.succ ≠ Code.dasNeedReconnect by decide)]
    exact ⟨hb.phase, hb.recorded⟩

theorem cntDasRetryDo_inv {a : Link} (i : Input) (hinv : Inv a)
    (hstate : a.kernel.cntState = sdkCntDasBreak) : Inv (cntDasRetryDo i a).2 := by
  simp only [cntDasRetryDo]
  split
  · exact hinv
  · have hlogin := dasMqttlogin2das_delivered i.login
      (a.mark (.dasLightReg a.kernel.redirectDasInfo))
    generalize hr : dasLightReg i.login a = r
    rw [← dasLightReg, hr] at hlogin
    obtain ⟨phase, hsourced, hregs, hlight, hexhausted⟩ := hinv
    cases phase with
    | unredirect state => exact absurd (state.symm.trans hstate) (by decide)
    | redirected state => exact absurd (state.symm.trans hstate) (by decide)
    | dasReged state => exact absurd (state.symm.trans hstate) (by decide)
    | dasBreak state lbs das info lightRegs =>
        have hhistory : history r.2.marks =
            (history a.marks).step (.dasLightReg a.kernel.redirectDasInfo) := hlogin.history_eq
        have hgranted : (history r.2.marks).granted = some r.2.kernel.redirectDasInfo := by
          rw [hhistory, hlogin.redirectDasInfo]
          exact info
        have hsourced' : (history r.2.marks).sourced = true := by
          simp [hhistory, History.step, hsourced, info]
        have hregs' : (history r.2.marks).regs ≤ 6 := by
          rw [hhistory]
          exact hregs
        have hdas : r.2.kernel.dasRetryTimes = a.kernel.dasRetryTimes := hlogin.dasRetryTimes
        have hlight' : (history r.2.marks).lightRegs = r.2.kernel.dasRetryTimes.toNat + 1 := by
          rw [hhistory, hdas, ← lightRegs]
          rfl
        have hfour : (history r.2.marks).lightRegs ≤ 4 := by
          rw [hlight', hdas]
          omega
        split
        · exact ⟨.dasReged rfl rfl rfl hgranted, hsourced', hregs', hfour, fun _ => rfl⟩
        · simp only [countRetry]
          split
          · exact breakOff_inv hsourced' hregs' hfour
          · rename_i hlimit
            have hcount := retry_toNat hlimit
            have hlt : r.2.kernel.dasRetryTimes.toNat < 3 :=
              UInt8.lt_iff_toNat_lt.mp (UInt8.not_le.mp hlimit)
            have hlbs : r.2.kernel.lbsRedirectTimes = 0 := hlogin.lbsRedirectTimes.trans lbs
            refine ⟨?_, hsourced', hregs', hfour, ?_⟩
            · rcases hlogin.cntState with hsame | hsame
              · refine .dasBreak (hsame.trans hstate) hlbs ?_ hgranted ?_
                · show (r.2.kernel.dasRetryTimes + 1).toNat ≤ 3
                  omega
                · show (history r.2.marks).lightRegs = (r.2.kernel.dasRetryTimes + 1).toNat
                  rw [hlight', hcount]
              · refine .unredirect hsame ?_ ?_
                · show r.2.kernel.lbsRedirectTimes.toNat ≤ 60
                  simp [hlbs]
                · show (r.2.kernel.dasRetryTimes + 1).toNat ≤ 5
                  omega
            · intro hmax
              have hmax' : (history r.2.marks).lightRegs = 4 := hmax
              omega

theorem next_inv {a a' : Link} {s : Step} (hinv : Inv a) (h : next a s = some a') : Inv a' := by
  cases next_took h with
  | stop msgs =>
      have hstopped := hinv.delivered (deliver_delivered msgs a)
      exact ⟨.unredirect rfl hstopped.phase.lbs_le hstopped.phase.das_le, hstopped.recorded⟩
  | offline => exact hinv
  | lbs i _ state result => exact react_inv (cntLbsRedirectDo_inv hinv state result)
  | reg i _ state => exact react_inv (cntDasRegDo_inv i hinv state)
  | work i _ state => exact react_inv (cntDasWorkDo_inv i hinv state)
  | retry i _ state => exact react_inv (cntDasRetryDo_inv i hinv state)
  | default => exact hinv

/-! ## Runs -/

/-- The state after `ez_kernel_init`. -/
def linkInit (serverName : CString) (serverPort : Int16) (devInfo : DevInfo)
    (devid masterKey : Bytes) : Link :=
  ⟨kernelInit serverName serverPort devInfo devid masterKey, []⟩

theorem linkInit_inv (serverName : CString) (serverPort : Int16) (devInfo : DevInfo)
    (devid masterKey : Bytes) : Inv (linkInit serverName serverPort devInfo devid masterKey) :=
  ⟨.unredirect rfl (Nat.zero_le _) (Nat.zero_le _), rfl, Nat.zero_le _, Nat.zero_le _,
    fun h => nomatch h⟩

structure Bounded (a : Link) : Prop where
  cntState : a.kernel.cntState = sdkCntUnredirect ∨ a.kernel.cntState = sdkCntRedirected ∨
    a.kernel.cntState = sdkCntDasReged ∨ a.kernel.cntState = sdkCntDasBreak
  lbsRedirectTimes : a.kernel.lbsRedirectTimes ≤ 60
  dasRetryTimes : a.kernel.dasRetryTimes ≤ 5
  dasReged : a.kernel.cntState = sdkCntDasReged →
    a.kernel.lbsRedirectTimes = 0 ∧ a.kernel.dasRetryTimes = 0
  sourced : (history a.marks).sourced = true
  granted : a.kernel.cntState ≠ sdkCntUnredirect →
    (history a.marks).granted = some a.kernel.redirectDasInfo
  regs : (history a.marks).regs ≤ 6
  regsLeft : a.kernel.cntState = sdkCntRedirected → (history a.marks).regs ≤ 5
  lightRegs : (history a.marks).lightRegs ≤ 4
  lightRegsLeft : a.kernel.cntState = sdkCntDasBreak → (history a.marks).lightRegs ≤ 3
  exhausted : (history a.marks).lightRegs = 4 → (history a.marks).answered = true

theorem Inv.bounded {a : Link} (h : Inv a) : Bounded a := by
  have hlbs : a.kernel.lbsRedirectTimes ≤ 60 := UInt8.le_iff_toNat_le.mpr h.phase.lbs_le
  have hdas : a.kernel.dasRetryTimes ≤ 5 := UInt8.le_iff_toNat_le.mpr h.phase.das_le
  obtain ⟨phase, hsourced, hregs, hlight, hexhausted⟩ := h
  cases phase with
  | unredirect state =>
      exact ⟨.inl state, hlbs, hdas, fun hs => absurd (state.symm.trans hs) (by decide), hsourced,
        fun hs => absurd state hs, hregs, fun hs => absurd (state.symm.trans hs) (by decide), hlight,
        fun hs => absurd (state.symm.trans hs) (by decide), hexhausted⟩
  | redirected state lbs das info regs =>
      exact ⟨.inr (.inl state), hlbs, hdas, fun hs => absurd (state.symm.trans hs) (by decide),
        hsourced, fun _ => info, hregs, fun _ => by rw [regs]; exact das, hlight,
        fun hs => absurd (state.symm.trans hs) (by decide), hexhausted⟩
  | dasReged state lbs das info =>
      exact ⟨.inr (.inr (.inl state)), hlbs, hdas, fun _ => ⟨lbs, das⟩, hsourced, fun _ => info,
        hregs, fun hs => absurd (state.symm.trans hs) (by decide), hlight,
        fun hs => absurd (state.symm.trans hs) (by decide), hexhausted⟩
  | dasBreak state lbs das info lightRegs =>
      exact ⟨.inr (.inr (.inr state)), hlbs, hdas, fun hs => absurd (state.symm.trans hs) (by decide),
        hsourced, fun _ => info, hregs, fun hs => absurd (state.symm.trans hs) (by decide), hlight,
        fun _ => by rw [lightRegs]; exact das, hexhausted⟩

/-- Every state of every run is within the bounds. -/
theorem access_machine_bounded (serverName : CString) (serverPort : Int16) (devInfo : DevInfo)
    (devid masterKey : Bytes) (a : Link)
    (h : Run.Reach next (fun _ _ => True) (linkInit serverName serverPort devInfo devid masterKey) a) :
    Bounded a :=
  (h.invariant (linkInit_inv _ _ _ _ _) fun _ _ _ hinv _ hnext => next_inv hinv hnext).bounded

/-! A device with known keys whose redirect succeeds. -/

def sampleLink : Link :=
  linkInit (.lit "lbs") 8666 ⟨0, .sap, .strncpy (.lit "D1"), .strncpy (.lit "ABCDEF")⟩
    (List.replicate 32 65) (List.replicate 16 65)

def dasText : Bytes :=
  ascii ("\x7b\"Type\":\"DAS\",\"DasInfo\":\x7b\"Address\":\"10.0.0.2\",\"Port\":8666," ++
    "\"UdpPort\":8667,\"ServerID\":\"s\",\"Domain\":\"d\"\x7d\x7d          ")

/-- The replies to the two requests of `lbs_redirect`. -/
def redirectReplies : Bytes :=
  [0x80, 36, 1, 1, 0, 0, 7] ++ List.replicate 31 9 ++
    [0xB0, 4 + dasText.length.toUInt8, 1, 1, 0, 0] ++ dasText

def redirectWorld : World where
  incoming := redirectReplies.map .ok
  writes := []
  allocs := []
  creates := []
  connects := [.ok (.strncpy (.lit "10.0.0.1"))]
  random := 7
  heap := [0]

def sampleLogin (connack : Option UInt8) : Login := ⟨none, none, [], connack⟩

/-- A step in which every call succeeds. -/
def sampleInput : Input where
  timerExpired := true
  crypto := plainCrypto
  world := redirectWorld
  affair := emptyAffair
  unregMsgs := []
  login := sampleLogin (some 0)
  subscription := ⟨[], true⟩
  fastLogin := sampleLogin (some 0)
  fastSubscription := ⟨[], true⟩
  work := ⟨[], false, false, [], false, false⟩

/-- Registered after two steps. -/
theorem access_machine_bounded_registered :
    ∃ a, [Step.yield sampleInput, .yield sampleInput].foldlM next sampleLink = some a ∧
      a.kernel.cntState = sdkCntDasReged ∧ Bounded a := by
  have hrun : ([Step.yield sampleInput, .yield sampleInput].foldlM next sampleLink).map
      (fun a => a.kernel.cntState) = some sdkCntDasReged := by decide +kernel
  obtain ⟨a, ha, hstate⟩ := Option.map_eq_some_iff.mp hrun
  exact ⟨a, ha, hstate, access_machine_bounded _ _ _ _ _ a (.of_foldlM ha)⟩

end EzIot.Access
