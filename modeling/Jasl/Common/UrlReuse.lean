import Jasl.Common.UrlAhead

/-!
# A used object and a new one side by side

`Url::set` clears nothing but `m_valid`, and the fill functions ask which components
are set. So what the first text left decides how the second is parsed, and what the
second does not set is read from it where the first had it.

Without a protocol left over, both objects are at the same place after every round, and
the used one is the new one but for a few ranges: `overRest` once a login was asked for,
`overAll` before. Both come to ends that read alike under the condition on what is
ahead, and under no other (`asked_iff`, `unasked_iff`).
-/

set_option autoImplicit false

namespace Jasl

open Library StdString

namespace Url

/-! ## Readings -/

/-- The accessors of two objects return the same. -/
structure SameReadings (s f : Url) : Prop where
  isValid : s.isValid = f.isValid
  url : s.url = f.url
  proto : s.proto = f.proto
  login : s.login = f.login
  pass : s.pass = f.pass
  host : s.host = f.host
  port : s.port = f.port
  tail : s.tail = f.tail

theorem SameReadings.refl (f : Url) : SameReadings f f := ⟨rfl, rfl, rfl, rfl, rfl, rfl, rfl, rfl⟩

namespace Parsed

variable {o : Url} {m : List Char}

theorem port_eq (left : Parsed o) (unset : o.mPort.isSet = false) : o.mPort = {} := by
  rcases left.port with none | ⟨x, y, port, long, _⟩
  · exact none
  · rw [port, SubString.isSet_between.mpr long] at unset
    cases unset

theorem pass_eq (left : Parsed o) (unset : o.mLogin.isSet = false) : o.mPass = {} := by
  rcases left.pass with none | ⟨isSet, _⟩
  · exact none
  · rw [unset] at isSet
    cases isSet

/-- The tail begins behind the port: when the port reads nothing, the tail throws. -/
theorem port_unset_of_reads (left : Parsed o) (fits : m.length < 2 ^ 63)
    (port : o.mPort.str m = .ok []) (tail : o.mTail.str m = .ok []) : o.mPort.isSet = false := by
  have bound := left.isSealed.fits
  rcases left.port with none | ⟨x, y, range, long, inside, before⟩
  · rw [none]
    rfl
  · rw [range] at port
    have length := SubString.length_eq_of_str_eq_nil long (by omega) (by omega) port
    have tail_le : o.mTail.mBegin ≤ o.mUrl.length := by
      rcases left.tail with none | ⟨z, tailRange, below, _⟩
      · rw [none]
        exact Nat.zero_le _
      · rw [tailRange]
        exact below
    rw [SubString.str_eq_error (by omega) (by omega)] at tail
    cases tail

/-- The password begins behind the login: when the login reads nothing, the password throws. -/
theorem pass_eq_of_reads (left : Parsed o) (fits : m.length < 2 ^ 63)
    (login : o.mLogin.str m = .ok []) (pass : o.mPass.str m = .ok []) : o.mPass = {} := by
  have bound := left.isSealed.fits
  rcases left.pass with none | ⟨isSet, x, y, range, behind, ordered, inside⟩
  · exact none
  · obtain ⟨z, w, loginRange, _, loginInside⟩ := left.login
    rw [loginRange] at login isSet behind
    have length := SubString.length_eq_of_str_eq_nil (SubString.isSet_between.mp isSet) (by omega)
      (by omega) login
    rw [SubString.between_mBegin] at behind
    rw [range, SubString.str_eq_error (by rw [SubString.between_mBegin]; omega)
      (by rw [SubString.between_mBegin]; omega)] at pass
    cases pass

end Parsed

/-! ## Side by side -/

/-- A used object where a new one is, once a login was asked for. -/
def overRest (t o : Url) : Url := { t with mHost := o.mHost, mPort := o.mPort, mTail := o.mTail }

/-- A used object where a new one is, before a login was asked for. -/
def overAll (t o : Url) : Url := { t.overRest o with mLogin := o.mLogin, mPass := o.mPass }

section SideBySide

variable {o s t f : Url} {b k i n : ℕ}

/-- A host that does not begin at the start has a `':'` before it. -/
theorem Fresh.colon_before (fresh : Fresh t b k) (positive : 0 < t.hostBegin i) :
    ∃ c, 0 < c ∧ c < k ∧ t.mUrl[c]? = some ':' := by
  rw [hostBegin] at positive
  split_ifs at positive with passSet protoSet
  · rcases fresh.pass with none | ⟨isSet, _⟩
    · rw [none] at passSet
      cases passSet
    · obtain ⟨colon, before⟩ := fresh.login_colon isSet
      have begins := fresh.login_begin_lt isSet
      exact ⟨t.mLogin.mEnd, by omega, before, colon⟩
  · have long := fresh.toScanning.proto_isSet.mp protoSet
    have behind := fresh.start_le
    rcases fresh.segment with zero | ⟨_, atScheme⟩
    · omega
    · exact ⟨b - 3, by omega, by omega, atScheme.1⟩
  · exact absurd positive (Nat.lt_irrefl 0)

/-- With a port left over, the `'/'` ends a host that is too short or too long. -/
theorem host_differs (fresh : Fresh t b k) (ahead : k ≤ i) (slash : t.mUrl[i]? = some '/')
    (sameUrl : s.mUrl = t.mUrl) (sameBegin : s.hostBegin i = t.hostBegin i)
    (portSet : s.mPort.isSet = true) {after : Url} (done : finish false s i = .ok after) :
    after.host ≠ (SubString.between (t.hostBegin i) i).str t.mUrl := by
  have fits := fresh.isSealed.fits
  have inside := (List.getElem?_eq_some_iff.mp slash).1
  have ordered := (fresh.finish_slash false ahead inside).1
  have ends : s.hostEnd i = rfind t.mUrl ':' i := by
    rw [hostEnd, portSet, if_pos rfl, sameUrl]
  rw [finish, sameBegin, ends, rfind] at done
  have covers : ∀ last < 2 ^ 64, (SubString.between (t.hostBegin i) last).str t.mUrl =
      (SubString.between (t.hostBegin i) i).str t.mUrl →
      min (last - t.hostBegin i) (t.mUrl.length - t.hostBegin i) = i - t.hostBegin i := by
    intro last bound same
    rw [SubString.covers_of_same_str (by omega) (by omega) bound (by omega) (by omega) same]
    omega
  have differs : ∀ range,
      SubString.set false (t.hostBegin i) ((lastUpTo (· == ':') t.mUrl i).getD npos) = .ok range →
      range.str t.mUrl ≠ (SubString.between (t.hostBegin i) i).str t.mUrl := by
    intro range set same
    cases last : lastUpTo (· == ':') t.mUrl i with
    | none =>
        have npos_eq : npos = 2 ^ 64 - 1 := rfl
        rw [last, Option.getD_none, SubString.set_eq (by omega) (by omega)] at set
        cases set
        have longer := covers npos (by omega) same
        omega
    | some e =>
        obtain ⟨e_le, hit, clear⟩ := lastUpTo_eq_some.mp last
        have colon := hit_beq_iff.mp hit
        have e_ne : e ≠ i := by
          rintro rfl
          rw [slash] at colon
          cases colon
        rw [last, Option.getD_some] at set
        rcases SubString.set_eq_ok (by omega) (by omega) set with ⟨le, rfl⟩ | ⟨zero, rfl⟩
        · have shorter := covers e (by omega) same
          omega
        · have atStart : t.hostBegin i = 0 := by
            by_contra positive
            obtain ⟨c, c_pos, c_lt, isColon⟩ := fresh.colon_before (i := i) (by omega)
            exact clear c (by omega) (by omega) (hit_beq_iff.mpr isColon)
          have shorter := covers (t.hostBegin i) (by omega) same
          omega
  cases set : SubString.set false (t.hostBegin i) ((lastUpTo (· == ':') t.mUrl i).getD npos) with
  | error fault =>
      rw [set] at done
      cases done
  | ok range =>
      rw [set] at done
      cases done
      rw [Url.host, sameUrl]
      exact differs range set

/-- The used object comes to an end that reads like the end of the new one. -/
def EndsAlike (s : Url) (k : ℕ) (f : Url) : Prop :=
  ∃ after, Ends (body false) (s, k) (.ok after) ∧ SameReadings after f

theorem endsAlike_of_result (result : Except StringFault Url)
    (ends : ∀ r, Ends (body false) (s, k) r ↔ result = r) :
    EndsAlike s k f ↔ ∃ after, result = .ok after ∧ SameReadings after f := by
  simp only [EndsAlike, ends]

theorem not_endsAlike_of_fault {fault : StringFault}
    (ends : ∀ r, Ends (body false) (s, k) r ↔ .error fault = r) : ¬EndsAlike s k f := by
  rintro ⟨after, ended, _⟩
  cases (ends _).mp ended

theorem endsAlike_iff_of_round {next : Url} {k' : ℕ}
    (ends : ∀ r, Ends (body false) (s, k) r ↔ Ends (body false) (next, k') r) :
    EndsAlike s k f ↔ EndsAlike next k' f := by
  simp only [EndsAlike, ends]

/-! ### Once a login was asked for -/

/-- At the `'/'` the readings agree when no port is left over. -/
theorem asked_slash (left : Parsed o) (fresh : Fresh t b k)
    (found : nextDelimiter t.mUrl k = some i) (slash : t.mUrl[i]? = some '/')
    (ended : Ends (body false) (t, k) (.ok f)) :
    EndsAlike (t.overRest o) k f ↔ o.mPort.isSet = false := by
  have ahead := (nextDelimiter_eq_some.mp found).1
  have inside := (List.getElem?_eq_some_iff.mp slash).1
  have finished := (ends_of_slash fresh.isSealed found slash).mp ended
  rw [endsAlike_of_result (finish false (t.overRest o) i) fun r =>
    ends_of_slash (u := t.overRest o) fresh.isSealed found slash]
  constructor
  · rintro ⟨after, done, same⟩
    by_contra isSet
    rw [Bool.not_eq_false] at isSet
    rw [(fresh.finish_slash false ahead inside).2] at finished
    have host := same.host
    cases finished
    exact host_differs fresh ahead slash (s := t.overRest o) rfl rfl isSet done host
  · intro unset
    have noPort : t.overRest o = { t with mHost := o.mHost, mTail := o.mTail } := by
      rw [overRest, left.port_eq unset, ← fresh.port]
    have same : finish false (t.overRest o) i = finish false t i := by
      rw [noPort]
      rfl
    rw [same]
    exact ⟨f, finished, .refl f⟩

/-- With a port left over, the `':'` of a port ends a login instead, which has to be empty. -/
theorem asked_left_port (fresh : Fresh t b k) (found : nextDelimiter t.mUrl k = some i)
    (begins : BeginsPort t.mUrl b i n) (portSet : o.mPort.isSet = true)
    (unset : t.mLogin.isSet = false) (ended : Ends (body false) (t, k) (.ok f)) :
    EndsAlike (t.overRest o) k f ↔
      b = i ∧ o.mPort.str t.mUrl = .ok ((t.mUrl.drop (i + 1)).take (n - (i + 1))) := by
  have hm := fresh.isSealed
  have bound := hm.fits
  have inside := begins.lt_length
  have long := begins.portAt.1
  have ahead := (nextDelimiter_eq_some.mp found).1
  have start_le := fresh.start_le
  have scan : Scanning (t.overRest o) b k := fresh.toScanning.congr rfl rfl
  obtain ⟨ordered, result⟩ := fresh.finish_port false ahead begins
  have finished := (fresh.toScanning.ends_of_port found begins.colon begins.inName fresh.port_unset
    begins.portAt).mp ended
  rw [result] at finished
  cases finished
  have ends : ∀ r, Ends (body false) (t.overRest o, k) r ↔
      finish false { t.overRest o with mLogin := .between b i } n = r := fun r =>
    (scan.ends_of_login found begins.colon begins.inName (.inl portSet) unset).trans
      (ends_of_slash (u := { t.overRest o with mLogin := .between b i }) hm
        begins.portAt.nextDelimiter begins.portAt.2.1)
  have used : finish false { t.overRest o with mLogin := .between b i } n = .ok { t.overRest o with
      mLogin := .between b i
      mHost := .between (t.hostBegin n) i
      mTail := .between (n + 1) t.mUrl.length
      mValid := true } :=
    finish_of_port (t := { t.overRest o with mLogin := .between b i }) false begins portSet ordered
      (by omega)
  have loginReads : (SubString.between b i).str t.mUrl = .ok ((t.mUrl.drop b).take (i - b)) :=
    SubString.between_str (by omega) (by omega) (by omega)
  have portReads : (SubString.between (i + 1) n).str t.mUrl =
      .ok ((t.mUrl.drop (i + 1)).take (n - (i + 1))) :=
    SubString.between_str (by omega) (by omega) (by omega)
  have emptyLogin : t.mLogin.str t.mUrl = .ok [] := by
    obtain ⟨x, y, login, login_le, below⟩ := fresh.login
    rw [SubString.isSet_eq_false_iff, login, SubString.between_mLength] at unset
    rw [login, SubString.between_str (by omega) (by omega) (by omega), unset, List.take_zero]
  rw [endsAlike_of_result _ ends, used]
  constructor
  · rintro ⟨after, done, same⟩
    cases done
    have sameLogin : (SubString.between b i).str t.mUrl = t.mLogin.str t.mUrl := same.login
    have samePort : o.mPort.str t.mUrl = (SubString.between (i + 1) n).str t.mUrl := same.port
    have length := SubString.length_of_str (by omega) (by omega) (by omega)
      (sameLogin.trans emptyLogin)
    rw [List.length_nil] at length
    exact ⟨by omega, samePort.trans portReads⟩
  · rintro ⟨rfl, reads⟩
    refine ⟨_, rfl, { isValid := rfl, url := rfl, proto := rfl, login := ?_, pass := rfl,
                      host := rfl, port := reads.trans portReads.symm, tail := rfl }⟩
    change (SubString.between b b).str t.mUrl = t.mLogin.str t.mUrl
    rw [loginReads, emptyLogin, Nat.sub_self, List.take_zero]

/-- At a port the readings agree when none is left over, or when the one that is left reads like
it. -/
theorem asked_port (left : Parsed o) (fresh : Fresh t b k) (found : nextDelimiter t.mUrl k = some i)
    (begins : BeginsPort t.mUrl b i n) (ended : Ends (body false) (t, k) (.ok f)) :
    EndsAlike (t.overRest o) k f ↔ (o.mPort.isSet = true → t.mLogin.isSet = false ∧ b = i ∧
      o.mPort.str t.mUrl = .ok ((t.mUrl.drop (i + 1)).take (n - (i + 1)))) := by
  have scan : Scanning (t.overRest o) b k := fresh.toScanning.congr rfl rfl
  cases portSet : o.mPort.isSet with
  | false =>
      have finished := (fresh.toScanning.ends_of_port found begins.colon begins.inName
        fresh.port_unset begins.portAt).mp ended
      have noPort : t.overRest o = { t with mHost := o.mHost, mTail := o.mTail } := by
        rw [overRest, left.port_eq portSet, ← fresh.port]
      have same : finish false { t.overRest o with mPort := .between (i + 1) n } n =
          finish false { t with mPort := .between (i + 1) n } n := by
        rw [noPort]
        rfl
      rw [endsAlike_of_result _ fun r =>
        scan.ends_of_port found begins.colon begins.inName portSet begins.portAt, same]
      constructor
      · intro _ isSet
        cases isSet
      · intro _
        exact ⟨f, finished, .refl f⟩
  | true =>
      cases loginSet : t.mLogin.isSet with
      | true =>
          constructor
          · intro alike
            exact absurd alike (not_endsAlike_of_fault fun r =>
              scan.ends_of_refused_colon found begins.colon begins.inName (.inl portSet) loginSet)
          · intro last
            cases (last rfl).1
      | false =>
          rw [asked_left_port fresh found begins portSet loginSet ended]
          constructor
          · intro reads _
            exact ⟨rfl, reads⟩
          · intro last
            exact (last rfl).2

/-- Where the text stops the readings agree when nothing is left to read. -/
theorem asked_stop (left : Parsed o) (hm : Sealed t.mUrl) (host : t.mHost = {})
    (port : t.mPort = {}) (tail : t.mTail = {}) (outside : t.mUrl.length ≤ k)
    (ended : Ends (body false) (t, k) (.ok f)) :
    EndsAlike (t.overRest o) k f ↔
      o.mPort.isSet = false ∧ o.mHost.str t.mUrl = .ok [] ∧ o.mTail.str t.mUrl = .ok [] := by
  have bound := hm.fits
  have unread : ({} : SubString).str t.mUrl = .ok [] := SubString.str_empty (by omega)
  have finished := (ends_of_end outside).mp ended
  cases finished
  rw [endsAlike_of_result _ fun r => ends_of_end (u := t.overRest o) outside]
  constructor
  · rintro ⟨after, done, same⟩
    cases done
    have sameHost : o.mHost.str t.mUrl = t.mHost.str t.mUrl := same.host
    have samePort : o.mPort.str t.mUrl = t.mPort.str t.mUrl := same.port
    have sameTail : o.mTail.str t.mUrl = t.mTail.str t.mUrl := same.tail
    rw [host, unread] at sameHost
    rw [port, unread] at samePort
    rw [tail, unread] at sameTail
    exact ⟨left.port_unset_of_reads hm.fits samePort sameTail, sameHost, sameTail⟩
  · rintro ⟨unset, hostReads, tailReads⟩
    refine ⟨_, rfl, { isValid := rfl, url := rfl, proto := rfl, login := rfl, pass := rfl,
                      host := ?_, port := ?_, tail := ?_ }⟩
    · change o.mHost.str t.mUrl = t.mHost.str t.mUrl
      rw [hostReads, host, unread]
    · change o.mPort.str t.mUrl = t.mPort.str t.mUrl
      rw [left.port_eq unset, port]
    · change o.mTail.str t.mUrl = t.mTail.str t.mUrl
      rw [tailReads, tail, unread]

/-- **Once a login was asked for, the used object ends like the new one under one condition.** -/
theorem asked_iff (left : Parsed o) (fresh : Fresh t b k) (before : k < t.mUrl.length)
    (ended : Ends (body false) (t, k) (.ok f)) :
    EndsAlike (t.overRest o) k f ↔ ForgetsAsked o t.mLogin t.mUrl b k := by
  have hm := fresh.isSealed
  induction rest : t.mUrl.length - k using Nat.strongRecOn generalizing t b k with
  | _ rest ih =>
      subst rest
      have scan : Scanning (t.overRest o) b k := fresh.toScanning.congr rfl rfl
      obtain ⟨i, found⟩ := hm.exists_delimiter before
      have ahead := (nextDelimiter_eq_some.mp found).1
      cases delimiter_of_next b found with
      | scheme ends =>
          have bound := ends.lt_length
          rw [fresh.toScanning.ends_of_scheme found ends] at ended
          rw [endsAlike_iff_of_round fun _ => scan.ends_of_scheme found ends]
          by_cases stops : i + 3 = t.mUrl.length
          · rw [forgetsAsked_of_stop found ends stops]
            exact asked_stop (o := o) (t := { t with mProto := .between 0 i }) left hm fresh.host
              fresh.port fresh.tail (Nat.le_of_eq stops.symm) ended
          · rw [(sameAhead_of_scheme found ends stops).forgetsAsked]
            exact ih _ (by change t.mUrl.length - (i + 3) < _; omega) (fresh.scheme found ends)
              (by change i + 3 < t.mUrl.length; omega) ended hm rfl
      | port n begins =>
          rw [forgetsAsked_of_port found begins]
          exact asked_port left fresh found begins ended
      | login ends =>
          have room := hm.succ_lt_length ends.colon (by decide)
          obtain ⟨unset, later⟩ := fresh.accepted_login found ends ended
          rw [endsAlike_iff_of_round fun _ => scan.ends_of_login found ends.colon
            ends.inName (.inr ends.noPort) unset, forgetsAsked_of_login found ends unset]
          exact ih _ (by change t.mUrl.length - (i + 1) < _; omega)
            (fresh.next_login found ends unset) room later hm rfl
      | atSign here =>
          have room := hm.succ_lt_length here (by decide)
          obtain ⟨unset, isSet, c, positive, last, next, later⟩ :=
            fresh.accepted_at found here ended
          rw [endsAlike_iff_of_round fun _ => ends_of_at (u := t.overRest o) hm found here
            unset isSet positive last, (sameAhead_of_at found here).forgetsAsked]
          exact ih _ (by change t.mUrl.length - (i + 1) < _; omega) next room later hm rfl
      | slash here =>
          rw [forgetsAsked_of_slash found here]
          exact asked_slash left fresh found here ended

/-! ### Before a login was asked for -/

/-- A login and a password that are left over and not overwritten read nothing. -/
theorem reads_of_kept {after : Url} (same : SameReadings after f) (left : Parsed o)
    (hm : Sealed t.mUrl) (url : after.mUrl = t.mUrl) (login : after.mLogin = o.mLogin)
    (pass : after.mPass = o.mPass) (loginOf : f.mLogin = {}) (passOf : f.mPass = {})
    (urlOf : f.mUrl = t.mUrl) :
    o.mPass = {} ∧ o.mLogin.str t.mUrl = .ok [] := by
  have bound := hm.fits
  have unread : ({} : SubString).str t.mUrl = .ok [] := SubString.str_empty (by omega)
  have sameLogin := same.login
  have samePass := same.pass
  rw [Url.login, Url.login, url, urlOf, login, loginOf, unread] at sameLogin
  rw [Url.pass, Url.pass, url, urlOf, pass, passOf, unread] at samePass
  exact ⟨left.pass_eq_of_reads hm.fits sameLogin samePass, sameLogin⟩

section Unasked

variable (left : Parsed o) (fresh : Fresh t b k) (noLogin : t.mLogin = {}) (noPass : t.mPass = {})
include left fresh noLogin noPass

theorem unasked_slash (found : nextDelimiter t.mUrl k = some i) (slash : t.mUrl[i]? = some '/')
    (ended : Ends (body false) (t, k) (.ok f)) :
    EndsAlike (t.overAll o) k f ↔
      o.mPass = {} ∧ o.mLogin.str t.mUrl = .ok [] ∧ o.mPort.isSet = false := by
  have hm := fresh.isSealed
  have bound := hm.fits
  have ahead := (nextDelimiter_eq_some.mp found).1
  have inside := (List.getElem?_eq_some_iff.mp slash).1
  obtain ⟨ordered, result⟩ := fresh.finish_slash false ahead inside
  have finished := (ends_of_slash hm found slash).mp ended
  rw [result] at finished
  cases finished
  rw [endsAlike_of_result (finish false (t.overAll o) i) fun r =>
    ends_of_slash (u := t.overAll o) hm found slash]
  constructor
  · rintro ⟨after, done, same⟩
    obtain ⟨url, _, login, pass, _⟩ := finish_keeps done
    obtain ⟨passEmpty, reads⟩ := reads_of_kept same left hm url login pass noLogin noPass rfl
    refine ⟨passEmpty, reads, ?_⟩
    by_contra isSet
    rw [Bool.not_eq_false] at isSet
    have sameBegin : (t.overAll o).hostBegin i = t.hostBegin i := by
      have samePass : (t.overAll o).mPass = t.mPass := passEmpty.trans noPass.symm
      rw [hostBegin, hostBegin, samePass]
      rfl
    exact host_differs fresh ahead slash (s := t.overAll o) rfl sameBegin isSet done same.host
  · rintro ⟨passEmpty, reads, unset⟩
    have used : t.overAll o =
        { t with mHost := o.mHost, mTail := o.mTail, mLogin := o.mLogin } := by
      rw [overAll, overRest, left.port_eq unset, ← fresh.port, passEmpty, ← noPass]
    refine ⟨{ t with
      mLogin := o.mLogin
      mHost := .between (t.hostBegin i) i
      mTail := .between (i + 1) t.mUrl.length
      mValid := true }, ?_, ?_⟩
    · rw [used]
      exact finish_of_no_port (t := { t with mHost := o.mHost, mTail := o.mTail, mLogin := o.mLogin })
        false fresh.port_unset ordered (by omega)
    · refine { isValid := rfl, url := rfl, proto := rfl, login := ?_, pass := rfl, host := rfl,
               port := rfl, tail := rfl }
      change o.mLogin.str t.mUrl = t.mLogin.str t.mUrl
      rw [reads, noLogin, SubString.str_empty (by omega)]

/-- At a port that takes the place of an unset one, the login is left over. -/
theorem unasked_own_port (found : nextDelimiter t.mUrl k = some i)
    (begins : BeginsPort t.mUrl b i n) (portUnset : o.mPort.isSet = false)
    (ended : Ends (body false) (t, k) (.ok f)) :
    EndsAlike (t.overAll o) k f ↔ o.mPass = {} ∧ o.mLogin.str t.mUrl = .ok [] := by
  have hm := fresh.isSealed
  have bound := hm.fits
  have ahead := (nextDelimiter_eq_some.mp found).1
  have inside := begins.lt_length
  have long := begins.portAt.1
  have scan : Scanning (t.overAll o) b k := fresh.toScanning.congr rfl rfl
  obtain ⟨ordered, result⟩ := fresh.finish_port false ahead begins
  have finished := (fresh.toScanning.ends_of_port found begins.colon begins.inName
    fresh.port_unset begins.portAt).mp ended
  rw [result] at finished
  cases finished
  rw [endsAlike_of_result _ fun r =>
    scan.ends_of_port found begins.colon begins.inName portUnset begins.portAt]
  constructor
  · rintro ⟨after, done, same⟩
    obtain ⟨url, _, login, pass, _⟩ := finish_keeps done
    exact reads_of_kept same left hm url login pass noLogin noPass rfl
  · rintro ⟨passEmpty, reads⟩
    have used : { t.overAll o with mPort := .between (i + 1) n } =
        { t with mPort := .between (i + 1) n, mHost := o.mHost, mTail := o.mTail,
                 mLogin := o.mLogin } := by
      rw [overAll, overRest, passEmpty, ← noPass]
    refine ⟨{ t with
      mLogin := o.mLogin
      mPort := .between (i + 1) n
      mHost := .between (t.hostBegin n) i
      mTail := .between (n + 1) t.mUrl.length
      mValid := true }, ?_, ?_⟩
    · rw [used]
      exact finish_of_port (t := { t with
        mPort := .between (i + 1) n, mHost := o.mHost, mTail := o.mTail, mLogin := o.mLogin })
        false begins (SubString.isSet_between.mpr long) ordered (by omega)
    · refine { isValid := rfl, url := rfl, proto := rfl, login := ?_, pass := rfl, host := rfl,
               port := rfl, tail := rfl }
      change o.mLogin.str t.mUrl = t.mLogin.str t.mUrl
      rw [reads, noLogin, SubString.str_empty (by omega)]

/-- With a port left over, the `':'` of a port asks for a login. -/
theorem unasked_left_port (found : nextDelimiter t.mUrl k = some i)
    (begins : BeginsPort t.mUrl b i n) (portSet : o.mPort.isSet = true)
    (ended : Ends (body false) (t, k) (.ok f)) :
    EndsAlike (t.overAll o) k f ↔ o.mPass = {} ∧ o.mLogin.isSet = false ∧ b = i ∧
      o.mPort.str t.mUrl = .ok ((t.mUrl.drop (i + 1)).take (n - (i + 1))) := by
  have scan : Scanning (t.overAll o) b k := fresh.toScanning.congr rfl rfl
  cases loginSet : o.mLogin.isSet with
  | true =>
      constructor
      · intro alike
        exact absurd alike (not_endsAlike_of_fault fun r =>
          scan.ends_of_refused_colon found begins.colon begins.inName (.inl portSet) loginSet)
      · rintro ⟨_, isUnset, _⟩
        cases isUnset
  | false =>
      -- the login that is left over is overwritten here, as an unset one is
      have passEmpty := left.pass_eq loginSet
      have scanOver : Scanning (t.overRest o) b k := fresh.toScanning.congr rfl rfl
      have unset : t.mLogin.isSet = false := by
        rw [noLogin]
        rfl
      have same : { t.overAll o with mLogin := .between b i } =
          { t.overRest o with mLogin := .between b i } := by
        rw [overAll, passEmpty, ← noPass]
        rfl
      have alike : EndsAlike (t.overRest o) k f ↔
          EndsAlike { t.overRest o with mLogin := .between b i } (i + 1) f :=
        endsAlike_iff_of_round fun _ => scanOver.ends_of_login found begins.colon begins.inName
          (.inl portSet) unset
      rw [endsAlike_iff_of_round fun _ => scan.ends_of_login found begins.colon
        begins.inName (.inl portSet) loginSet, same, ← alike,
        asked_left_port fresh found begins portSet unset ended]
      constructor
      · exact fun last => ⟨passEmpty, rfl, last⟩
      · exact fun ⟨_, _, last⟩ => last

theorem unasked_port (found : nextDelimiter t.mUrl k = some i) (begins : BeginsPort t.mUrl b i n)
    (ended : Ends (body false) (t, k) (.ok f)) :
    EndsAlike (t.overAll o) k f ↔ o.mPass = {} ∧
      (o.mPort.isSet = false → o.mLogin.str t.mUrl = .ok []) ∧
      (o.mPort.isSet = true → o.mLogin.isSet = false ∧ b = i ∧
        o.mPort.str t.mUrl = .ok ((t.mUrl.drop (i + 1)).take (n - (i + 1)))) := by
  cases portSet : o.mPort.isSet with
  | false =>
      rw [unasked_own_port left fresh noLogin noPass found begins portSet ended]
      constructor
      · rintro ⟨passEmpty, reads⟩
        refine ⟨passEmpty, fun _ => reads, fun isSet => ?_⟩
        cases isSet
      · rintro ⟨passEmpty, reads, _⟩
        exact ⟨passEmpty, reads rfl⟩
  | true =>
      rw [unasked_left_port left fresh noLogin noPass found begins portSet ended]
      constructor
      · rintro ⟨passEmpty, last⟩
        refine ⟨passEmpty, fun isUnset => ?_, fun _ => last⟩
        cases isUnset
      · rintro ⟨passEmpty, _, last⟩
        exact ⟨passEmpty, last rfl⟩

theorem unasked_stop (outside : t.mUrl.length ≤ k) (ended : Ends (body false) (t, k) (.ok f)) :
    EndsAlike (t.overAll o) k f ↔ o.mPass = {} ∧ o.mLogin.str t.mUrl = .ok [] ∧
      o.mPort.isSet = false ∧ o.mHost.str t.mUrl = .ok [] ∧ o.mTail.str t.mUrl = .ok [] := by
  have hm := fresh.isSealed
  have bound := hm.fits
  have unread : ({} : SubString).str t.mUrl = .ok [] := SubString.str_empty (by omega)
  have alike := asked_stop (o := o) left hm fresh.host fresh.port fresh.tail outside ended
  rw [endsAlike_of_result _ fun r => ends_of_end (u := t.overRest o) outside] at alike
  rw [endsAlike_of_result _ fun r => ends_of_end (u := t.overAll o) outside]
  have finished := (ends_of_end outside).mp ended
  cases finished
  constructor
  · rintro ⟨after, done, same⟩
    cases done
    obtain ⟨passEmpty, reads⟩ := reads_of_kept same left hm rfl rfl rfl noLogin noPass rfl
    refine ⟨passEmpty, reads, alike.mp ⟨_, rfl, ?_⟩⟩
    exact { same with login := rfl, pass := rfl }
  · rintro ⟨passEmpty, reads, last⟩
    obtain ⟨after, done, same⟩ := alike.mpr last
    cases done
    refine ⟨_, rfl, { same with login := ?_, pass := ?_ }⟩
    · change o.mLogin.str t.mUrl = t.mLogin.str t.mUrl
      rw [reads, noLogin, unread]
    · change o.mPass.str t.mUrl = t.mPass.str t.mUrl
      rw [passEmpty, noPass]

/-- **The used object ends like the new one under one condition.** -/
theorem unasked_iff (before : k < t.mUrl.length) (ended : Ends (body false) (t, k) (.ok f)) :
    EndsAlike (t.overAll o) k f ↔ Forgets o t.mUrl b k := by
  have hm := fresh.isSealed
  induction rest : t.mUrl.length - k using Nat.strongRecOn generalizing t b k with
  | _ rest ih =>
      subst rest
      have scan : Scanning (t.overAll o) b k := fresh.toScanning.congr rfl rfl
      obtain ⟨i, found⟩ := hm.exists_delimiter before
      have ahead := (nextDelimiter_eq_some.mp found).1
      cases delimiter_of_next b found with
      | scheme ends =>
          have bound := ends.lt_length
          rw [fresh.toScanning.ends_of_scheme found ends] at ended
          rw [endsAlike_iff_of_round fun _ => scan.ends_of_scheme found ends]
          by_cases stops : i + 3 = t.mUrl.length
          · rw [forgets_of_stop found ends stops]
            exact unasked_stop (o := o) (t := { t with mProto := .between 0 i }) left
              (fresh.scheme found ends) noLogin noPass (Nat.le_of_eq stops.symm) ended
          · rw [(sameAhead_of_scheme found ends stops).forgets]
            exact ih _ (by change t.mUrl.length - (i + 3) < _; omega) (fresh.scheme found ends)
              noLogin noPass (by change i + 3 < t.mUrl.length; omega) ended hm rfl
      | port n begins =>
          rw [forgets_of_port found begins]
          exact unasked_port left fresh noLogin noPass found begins ended
      | login ends =>
          have room := hm.succ_lt_length ends.colon (by decide)
          obtain ⟨unset, later⟩ := fresh.accepted_login found ends ended
          rw [forgets_of_login found ends]
          cases loginSet : o.mLogin.isSet with
          | true =>
              constructor
              · intro alike
                exact absurd alike (not_endsAlike_of_fault fun r => scan.ends_of_refused_colon
                  found ends.colon ends.inName (.inr ends.noPort) loginSet)
              · rintro ⟨_, isUnset, _⟩
                cases isUnset
          | false =>
              have passEmpty := left.pass_eq loginSet
              have same : { t.overAll o with mLogin := .between b i } =
                  overRest { t with mLogin := .between b i } o := by
                rw [overAll, passEmpty, ← noPass]
                rfl
              rw [endsAlike_iff_of_round fun _ => scan.ends_of_login found ends.colon
                ends.inName (.inr ends.noPort) loginSet, same,
                asked_iff left (fresh.next_login found ends unset) room later]
              constructor
              · intro rest
                exact ⟨passEmpty, rfl, rest⟩
              · rintro ⟨_, _, rest⟩
                exact rest
      | atSign here =>
          obtain ⟨_, isSet, _⟩ := fresh.accepted_at found here ended
          rw [noLogin] at isSet
          cases isSet
      | slash here =>
          rw [forgets_of_slash found here]
          exact unasked_slash left fresh noLogin noPass found here ended

end Unasked

end SideBySide

end Url

end Jasl
