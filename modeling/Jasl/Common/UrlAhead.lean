import Jasl.Common.UrlScan

/-!
# What is ahead in the text

The delimiters that a parse meets from a place on (`Meets`), and four things that it may
find there: a `':'` that asks for a login, one that asks for a login that is not empty,
a port with nothing before it, and the end of the text behind a `"://"`.

A used object is parsed like a new one from a place on under a condition on its ranges
and on what is ahead (`Forgets`, and `ForgetsAsked` once a login was asked for). Each
round of the parse passes the condition on to the next place, or decides it.
-/

set_option autoImplicit false

namespace Jasl

open Library

namespace Url

/-! ## The delimiters of a text -/

/-- Read from `k` in the segment from `b` on, the delimiter at `j` is met in the segment from `a`
on. -/
inductive Meets (m : List Char) : ℕ → ℕ → ℕ → ℕ → Prop where
  | here {b k i : ℕ} : nextDelimiter m k = some i → Meets m b k b i
  | segment {b k i a j : ℕ} : nextDelimiter m k = some i → EndsProto m b i →
      Meets m (i + 3) (i + 3) a j → Meets m b k a j
  | name {b k i a j : ℕ} : nextDelimiter m k = some i → EndsLogin m b i ∨ m[i]? = some '@' →
      Meets m b (i + 1) a j → Meets m b k a j

/-- Some delimiter that is met is of this kind. -/
def Finds (m : List Char) (b k : ℕ) (kind : ℕ → ℕ → Prop) : Prop :=
  ∃ a j, Meets m b k a j ∧ kind a j

/-- A login is asked for. -/
def AsksLogin (m : List Char) (b k : ℕ) : Prop := Finds m b k (EndsLogin m)

/-- A login is asked for that is not empty. -/
def NamesLogin (m : List Char) (b k : ℕ) : Prop :=
  Finds m b k fun a j => EndsLogin m a j ∧ a < j

/-- A port stands at the begin of a segment. -/
def HasBarePort (m : List Char) (b k : ℕ) (text : List Char) : Prop :=
  Finds m b k fun a j =>
    a = j ∧ ∃ n, BeginsPort m a j n ∧ (m.drop (j + 1)).take (n - (j + 1)) = text

/-- The text ends behind the `"://"` of a protocol. -/
def StopsBehindProto (m : List Char) (b k : ℕ) : Prop :=
  Finds m b k fun a j => EndsProto m a j ∧ j + 3 = m.length

section Finds

variable {m : List Char} {b k i : ℕ} {kind : ℕ → ℕ → Prop}

theorem EndsProto.colon (ends : EndsProto m b i) : m[i]? = some ':' := ends.2.1

theorem not_endsProto_of_name (name : EndsLogin m b i ∨ m[i]? = some '@') : ¬EndsProto m b i := by
  intro ends
  rcases name with login | atSign
  · exact login.inName ends
  · rw [ends.colon] at atSign
    cases atSign

theorem not_endsProto_of_slash (here : m[i]? = some '/') : ¬EndsProto m b i := by
  intro ends
  rw [ends.colon] at here
  cases here

theorem finds_of_scheme (found : nextDelimiter m k = some i) (ends : EndsProto m b i) :
    Finds m b k kind ↔ kind b i ∨ Finds m (i + 3) (i + 3) kind := by
  constructor
  · rintro ⟨a, j, meets, holds⟩
    cases meets with
    | here other =>
        rw [found] at other
        cases other
        exact .inl holds
    | segment other _ later =>
        rw [found] at other
        cases other
        exact .inr ⟨a, j, later, holds⟩
    | name other name _ =>
        rw [found] at other
        cases other
        exact absurd ends (not_endsProto_of_name name)
  · rintro (holds | ⟨a, j, later, holds⟩)
    · exact ⟨b, i, .here found, holds⟩
    · exact ⟨a, j, .segment found ends later, holds⟩

theorem finds_of_name (found : nextDelimiter m k = some i)
    (name : EndsLogin m b i ∨ m[i]? = some '@') :
    Finds m b k kind ↔ kind b i ∨ Finds m b (i + 1) kind := by
  constructor
  · rintro ⟨a, j, meets, holds⟩
    cases meets with
    | here other =>
        rw [found] at other
        cases other
        exact .inl holds
    | segment other ends _ =>
        rw [found] at other
        cases other
        exact absurd ends (not_endsProto_of_name name)
    | name other _ later =>
        rw [found] at other
        cases other
        exact .inr ⟨a, j, later, holds⟩
  · rintro (holds | ⟨a, j, later, holds⟩)
    · exact ⟨b, i, .here found, holds⟩
    · exact ⟨a, j, .name found name later, holds⟩

theorem finds_of_stop (found : nextDelimiter m k = some i) (noScheme : ¬EndsProto m b i)
    (noName : ¬(EndsLogin m b i ∨ m[i]? = some '@')) : Finds m b k kind ↔ kind b i := by
  constructor
  · rintro ⟨a, j, meets, holds⟩
    cases meets with
    | here other =>
        rw [found] at other
        cases other
        exact holds
    | segment other ends _ =>
        rw [found] at other
        cases other
        exact absurd ends noScheme
    | name other name _ =>
        rw [found] at other
        cases other
        exact absurd name noName
  · intro holds
    exact ⟨b, i, .here found, holds⟩

theorem finds_of_slash (found : nextDelimiter m k = some i) (slash : m[i]? = some '/') :
    Finds m b k kind ↔ kind b i := by
  refine finds_of_stop found ?_ ?_
  · intro ends
    rw [ends.colon] at slash
    cases slash
  · rintro (login | atSign)
    · exact login.not_slash slash
    · rw [slash] at atSign
      cases atSign

theorem finds_of_port {n : ℕ} (found : nextDelimiter m k = some i) (begins : BeginsPort m b i n) :
    Finds m b k kind ↔ kind b i := by
  refine finds_of_stop found begins.inName ?_
  rintro (login | atSign)
  · exact login.noPort n begins.portAt
  · rw [begins.colon] at atSign
    cases atSign

/-- Behind the end of the text nothing is found. -/
theorem not_finds_outside (outside : m.length ≤ k) : ¬Finds m b k kind := by
  have none_left : ∀ i, nextDelimiter m k ≠ some i := by
    intro i found
    obtain ⟨ahead, here, _⟩ := nextDelimiter_eq_some.mp found
    have inside : i < m.length := by
      rcases here with here | here | here <;> exact (List.getElem?_eq_some_iff.mp here).1
    omega
  rintro ⟨a, j, meets, _⟩
  cases meets with
  | here found => exact none_left _ found
  | segment found _ _ => exact none_left _ found
  | name found _ _ => exact none_left _ found

end Finds

/-! ## What has to be ahead -/

/-- From here on a used object is parsed like a new one, when no login was asked for yet: the
components that are left neither turn a decision nor show. -/
structure Forgets (o : Url) (m : List Char) (b k : ℕ) : Prop where
  pass : o.mPass = {}
  login_asked : AsksLogin m b k ∨ o.mPort.isSet = true → o.mLogin.isSet = false
  login_kept : o.mPort.isSet = false → ¬AsksLogin m b k → o.mLogin.str m = .ok []
  port : o.mPort.isSet = true → ¬NamesLogin m b k ∧
    ∃ text, HasBarePort m b k text ∧ o.mPort.str m = .ok text
  ended : StopsBehindProto m b k → o.mHost.str m = .ok [] ∧ o.mTail.str m = .ok []

/-- The same once a login was asked for, which is `login` then. -/
structure ForgetsAsked (o : Url) (login : SubString) (m : List Char) (b k : ℕ) : Prop where
  port : o.mPort.isSet = true → login.isSet = false ∧ ¬NamesLogin m b k ∧
    ∃ text, HasBarePort m b k text ∧ o.mPort.str m = .ok text
  ended : StopsBehindProto m b k → o.mHost.str m = .ok [] ∧ o.mTail.str m = .ok []

/-- What is ahead is the same in two places of the text. -/
structure SameAhead (m : List Char) (b k b' k' : ℕ) : Prop where
  asks : AsksLogin m b k ↔ AsksLogin m b' k'
  names : NamesLogin m b k ↔ NamesLogin m b' k'
  port : ∀ text, HasBarePort m b k text ↔ HasBarePort m b' k' text
  stops : StopsBehindProto m b k ↔ StopsBehindProto m b' k'

section Ahead

variable {m : List Char} {b k i b' k' n : ℕ} {o : Url} {login : SubString}

theorem sameAhead_of_round
    (round : ∀ kind, Finds m b k kind ↔ kind b i ∨ Finds m b' k' kind)
    (noLogin : ¬EndsLogin m b i) (noPort : ∀ n, ¬BeginsPort m b i n)
    (noStop : ¬(EndsProto m b i ∧ i + 3 = m.length)) : SameAhead m b k b' k' where
  asks := (round _).trans (or_iff_right noLogin)
  names := (round _).trans (or_iff_right fun named => noLogin named.1)
  port := fun _ => (round _).trans (or_iff_right fun ⟨_, n, begins, _⟩ => noPort n begins)
  stops := (round _).trans (or_iff_right noStop)

theorem sameAhead_of_scheme (found : nextDelimiter m k = some i) (ends : EndsProto m b i)
    (more : i + 3 ≠ m.length) : SameAhead m b k (i + 3) (i + 3) :=
  sameAhead_of_round (fun _ => finds_of_scheme found ends) (fun login => login.inName ends)
    (fun _ begins => begins.inName ends) fun stops => more stops.2

theorem sameAhead_of_at (found : nextDelimiter m k = some i) (here : m[i]? = some '@') :
    SameAhead m b k b (i + 1) := by
  have noColon : m[i]? ≠ some ':' := by
    rw [here]
    decide
  exact sameAhead_of_round (fun _ => finds_of_name found (.inr here))
    (fun login => noColon login.colon) (fun _ begins => noColon begins.colon)
    fun stops => noColon stops.1.colon

theorem SameAhead.forgetsAsked (same : SameAhead m b k b' k') :
    ForgetsAsked o login m b k ↔ ForgetsAsked o login m b' k' := by
  constructor
  · intro forgets
    exact ⟨by simpa only [← same.names, ← same.port] using forgets.port,
      by simpa only [← same.stops] using forgets.ended⟩
  · intro forgets
    exact ⟨by simpa only [same.names, same.port] using forgets.port,
      by simpa only [same.stops] using forgets.ended⟩

theorem SameAhead.forgets (same : SameAhead m b k b' k') :
    Forgets o m b k ↔ Forgets o m b' k' := by
  constructor
  · intro forgets
    exact ⟨forgets.pass, by simpa only [← same.asks] using forgets.login_asked,
      by simpa only [← same.asks] using forgets.login_kept,
      by simpa only [← same.names, ← same.port] using forgets.port,
      by simpa only [← same.stops] using forgets.ended⟩
  · intro forgets
    exact ⟨forgets.pass, by simpa only [same.asks] using forgets.login_asked,
      by simpa only [same.asks] using forgets.login_kept,
      by simpa only [same.names, same.port] using forgets.port,
      by simpa only [same.stops] using forgets.ended⟩

/-- Behind the `':'` of a login what is ahead is the same but for this login. -/
theorem ahead_of_login (found : nextDelimiter m k = some i) (ends : EndsLogin m b i) :
    AsksLogin m b k ∧ (NamesLogin m b k ↔ b < i ∨ NamesLogin m b (i + 1)) ∧
      (∀ text, HasBarePort m b k text ↔ HasBarePort m b (i + 1) text) ∧
      (StopsBehindProto m b k ↔ StopsBehindProto m b (i + 1)) := by
  have round : ∀ kind, Finds m b k kind ↔ kind b i ∨ Finds m b (i + 1) kind :=
    fun _ => finds_of_name found (.inl ends)
  refine ⟨(round _).mpr (.inl ends), ?_, ?_, ?_⟩
  · rw [NamesLogin, round]
    exact or_congr_left (and_iff_right ends)
  · intro text
    exact (round _).trans (or_iff_right fun ⟨_, n, begins, _⟩ => ends.noPort n begins.portAt)
  · exact (round _).trans (or_iff_right fun stops => ends.inName stops.1)

theorem forgetsAsked_of_login (found : nextDelimiter m k = some i) (ends : EndsLogin m b i)
    (unset : login.isSet = false) :
    ForgetsAsked o login m b k ↔ ForgetsAsked o (.between b i) m b (i + 1) := by
  obtain ⟨_, names, port, stops⟩ := ahead_of_login found ends
  have range : (SubString.between b i).isSet = false ↔ ¬b < i := by
    rw [← SubString.isSet_between, Bool.not_eq_true]
  constructor
  · intro forgets
    refine ⟨fun isSet => ?_, fun stop => forgets.ended (stops.mpr stop)⟩
    obtain ⟨_, unnamed, text, bare, reads⟩ := forgets.port isSet
    rw [names, not_or] at unnamed
    exact ⟨range.mpr unnamed.1, unnamed.2, text, (port text).mp bare, reads⟩
  · intro forgets
    refine ⟨fun isSet => ?_, fun stop => forgets.ended (stops.mp stop)⟩
    obtain ⟨empty, unnamed, text, bare, reads⟩ := forgets.port isSet
    refine ⟨unset, ?_, text, (port text).mpr bare, reads⟩
    rw [names, not_or]
    exact ⟨range.mp empty, unnamed⟩

theorem forgetsAsked_of_slash (found : nextDelimiter m k = some i) (slash : m[i]? = some '/') :
    ForgetsAsked o login m b k ↔ o.mPort.isSet = false := by
  have noColon : m[i]? ≠ some ':' := by
    rw [slash]
    decide
  constructor
  · intro forgets
    by_contra isSet
    rw [Bool.not_eq_false] at isSet
    obtain ⟨_, _, text, bare, _⟩ := forgets.port isSet
    obtain ⟨_, n, begins, _⟩ := (finds_of_slash found slash).mp bare
    exact noColon begins.colon
  · intro unset
    refine ⟨fun isSet => ?_, fun stop => ?_⟩
    · rw [unset] at isSet
      cases isSet
    · exact absurd ((finds_of_slash found slash).mp stop).1.colon noColon

theorem hasBarePort_of_port (found : nextDelimiter m k = some i) (begins : BeginsPort m b i n)
    (text : List Char) :
    HasBarePort m b k text ↔ b = i ∧ (m.drop (i + 1)).take (n - (i + 1)) = text := by
  rw [HasBarePort, finds_of_port found begins]
  constructor
  · rintro ⟨same, other, again, reads⟩
    rw [again.portAt.unique begins.portAt] at reads
    exact ⟨same, reads⟩
  · rintro ⟨same, reads⟩
    exact ⟨same, n, begins, reads⟩

theorem forgetsAsked_of_port (found : nextDelimiter m k = some i) (begins : BeginsPort m b i n) :
    ForgetsAsked o login m b k ↔ (o.mPort.isSet = true → login.isSet = false ∧ b = i ∧
      o.mPort.str m = .ok ((m.drop (i + 1)).take (n - (i + 1)))) := by
  have noStop : ¬StopsBehindProto m b k := fun stop =>
    begins.inName ((finds_of_port found begins).mp stop).1
  have noName : ¬NamesLogin m b k := fun named =>
    ((finds_of_port found begins).mp named).1.noPort n begins.portAt
  constructor
  · intro forgets isSet
    obtain ⟨unset, _, text, bare, reads⟩ := forgets.port isSet
    obtain ⟨same, rfl⟩ := (hasBarePort_of_port found begins text).mp bare
    exact ⟨unset, same, reads⟩
  · intro holds
    refine ⟨fun isSet => ?_, fun stop => absurd stop noStop⟩
    obtain ⟨unset, same, reads⟩ := holds isSet
    exact ⟨unset, noName, _, (hasBarePort_of_port found begins _).mpr ⟨same, rfl⟩, reads⟩

/-- Where the text stops nothing is ahead but the `"://"`. -/
theorem ahead_of_stop (found : nextDelimiter m k = some i) (ends : EndsProto m b i)
    (stops : i + 3 = m.length) :
    ¬AsksLogin m b k ∧ (∀ text, ¬HasBarePort m b k text) ∧ StopsBehindProto m b k := by
  have round : ∀ kind, Finds m b k kind ↔ kind b i := fun kind =>
    (finds_of_scheme found ends).trans (or_iff_left (not_finds_outside (Nat.le_of_eq stops.symm)))
  refine ⟨fun asks => ?_, fun text bare => ?_, (round _).mpr ⟨ends, stops⟩⟩
  · exact ((round _).mp asks).inName ends
  · obtain ⟨_, _, begins, _⟩ := (round _).mp bare
    exact begins.inName ends

theorem forgetsAsked_of_stop (found : nextDelimiter m k = some i) (ends : EndsProto m b i)
    (stops : i + 3 = m.length) :
    ForgetsAsked o login m b k ↔
      o.mPort.isSet = false ∧ o.mHost.str m = .ok [] ∧ o.mTail.str m = .ok [] := by
  obtain ⟨_, noPort, stop⟩ := ahead_of_stop found ends stops
  constructor
  · intro forgets
    refine ⟨?_, forgets.ended stop⟩
    by_contra isSet
    rw [Bool.not_eq_false] at isSet
    obtain ⟨_, _, text, bare, _⟩ := forgets.port isSet
    exact noPort text bare
  · rintro ⟨unset, reads⟩
    refine ⟨fun isSet => ?_, fun _ => reads⟩
    rw [unset] at isSet
    cases isSet

theorem forgets_of_stop (found : nextDelimiter m k = some i) (ends : EndsProto m b i)
    (stops : i + 3 = m.length) :
    Forgets o m b k ↔ o.mPass = {} ∧ o.mLogin.str m = .ok [] ∧
      o.mPort.isSet = false ∧ o.mHost.str m = .ok [] ∧ o.mTail.str m = .ok [] := by
  obtain ⟨noLogin, _, _⟩ := ahead_of_stop found ends stops
  have rest : ForgetsAsked o {} m b k ↔ _ := forgetsAsked_of_stop found ends stops
  constructor
  · intro forgets
    have last := rest.mp ⟨fun isSet => ⟨rfl, forgets.port isSet⟩, forgets.ended⟩
    exact ⟨forgets.pass, forgets.login_kept last.1 noLogin, last⟩
  · rintro ⟨pass, reads, last⟩
    obtain ⟨port, ended⟩ := rest.mpr last
    refine ⟨pass, ?_, fun _ _ => reads, fun isSet => (port isSet).2, ended⟩
    rintro (asks | isSet)
    · exact absurd asks noLogin
    · rw [last.1] at isSet
      cases isSet

theorem forgets_of_slash (found : nextDelimiter m k = some i) (slash : m[i]? = some '/') :
    Forgets o m b k ↔ o.mPass = {} ∧ o.mLogin.str m = .ok [] ∧ o.mPort.isSet = false := by
  have noLogin : ¬AsksLogin m b k := fun asks =>
    ((finds_of_slash found slash).mp asks).not_slash slash
  have rest : ForgetsAsked o {} m b k ↔ _ := forgetsAsked_of_slash found slash
  constructor
  · intro forgets
    have last := rest.mp ⟨fun isSet => ⟨rfl, forgets.port isSet⟩, forgets.ended⟩
    exact ⟨forgets.pass, forgets.login_kept last noLogin, last⟩
  · rintro ⟨pass, reads, last⟩
    obtain ⟨port, ended⟩ := rest.mpr last
    refine ⟨pass, ?_, fun _ _ => reads, fun isSet => (port isSet).2, ended⟩
    rintro (asks | isSet)
    · exact absurd asks noLogin
    · rw [last] at isSet
      cases isSet

theorem forgets_of_port (found : nextDelimiter m k = some i) (begins : BeginsPort m b i n) :
    Forgets o m b k ↔ o.mPass = {} ∧ (o.mPort.isSet = false → o.mLogin.str m = .ok []) ∧
      (o.mPort.isSet = true → o.mLogin.isSet = false ∧ b = i ∧
        o.mPort.str m = .ok ((m.drop (i + 1)).take (n - (i + 1)))) := by
  have noLogin : ¬AsksLogin m b k := fun asks =>
    ((finds_of_port found begins).mp asks).noPort n begins.portAt
  have rest : ForgetsAsked o {} m b k ↔ _ := forgetsAsked_of_port found begins
  constructor
  · intro forgets
    have last := rest.mp ⟨fun isSet => ⟨rfl, forgets.port isSet⟩, forgets.ended⟩
    exact ⟨forgets.pass, fun unset => forgets.login_kept unset noLogin, fun isSet =>
      ⟨forgets.login_asked (.inr isSet), (last isSet).2⟩⟩
  · rintro ⟨pass, reads, last⟩
    obtain ⟨port, ended⟩ := rest.mpr fun isSet => ⟨rfl, (last isSet).2⟩
    refine ⟨pass, ?_, fun unset _ => reads unset, fun isSet => (port isSet).2, ended⟩
    rintro (asks | isSet)
    · exact absurd asks noLogin
    · exact (last isSet).1

/-- Where the first login is asked for, none may be left over. -/
theorem forgets_of_login (found : nextDelimiter m k = some i) (ends : EndsLogin m b i) :
    Forgets o m b k ↔ o.mPass = {} ∧ o.mLogin.isSet = false ∧
      ForgetsAsked o (.between b i) m b (i + 1) := by
  have asks := (ahead_of_login found ends).1
  have unasked : ForgetsAsked o {} m b k ↔ _ := forgetsAsked_of_login found ends rfl
  rw [← unasked]
  constructor
  · intro forgets
    exact ⟨forgets.pass, forgets.login_asked (.inl asks),
      ⟨fun isSet => ⟨rfl, forgets.port isSet⟩, forgets.ended⟩⟩
  · rintro ⟨pass, unset, rest⟩
    exact ⟨pass, fun _ => unset, fun _ noLogin => absurd asks noLogin,
      fun isSet => (rest.port isSet).2, rest.ended⟩

end Ahead

end Url

end Jasl
