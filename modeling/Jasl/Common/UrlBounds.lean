import Jasl.Common.UrlTrace

/-!
# What a new object does with its text is in bounds

Between two rounds a new object is either scanning (`Fresh`), or it has met the port and
is at the `'/'` behind it (`Visited`). From both a round sets ordered ranges in the text
and takes predecessors of positive indexes alone. It goes on further ahead unless it has
come to an `assert(false)`, and an object that is returned has all of its components in
the text (`Visited.proceeds`). So it is in all rounds of a parse, with and without
assertions (`parse_is_in_bounds`).
-/

set_option autoImplicit false

namespace Jasl

open Library StdString

namespace Url

/-- A range that is set is ordered and in the text, and an index has a predecessor. -/
def Event.InBounds (m : List Char) : Event → Prop
  | .set first last => first ≤ last ∧ last ≤ m.length
  | .previous index => 0 < index ∧ index ≤ m.length
  | .assertFalse => True

/-- All components lie in the text. -/
def InText (f : Url) : Prop :=
  Inside f.mUrl f.mProto ∧ Inside f.mUrl f.mLogin ∧ Inside f.mUrl f.mPass ∧
    Inside f.mUrl f.mHost ∧ Inside f.mUrl f.mPort ∧ Inside f.mUrl f.mTail

/-- No accessor throws. -/
def Readable (f : Url) : Prop :=
  ∀ accessor ∈ [proto, login, pass, host, port, tail], ∃ text, accessor f = .ok text

theorem InText.readable {f : Url} (inText : f.InText) (fits : f.mUrl.length < 2 ^ 63) :
    f.Readable := by
  obtain ⟨proto, login, pass, host, port, tail⟩ := inText
  intro accessor member
  simp only [List.mem_cons, List.not_mem_nil, or_false] at member
  rcases member with rfl | rfl | rfl | rfl | rfl | rfl
  · exact ⟨_, proto.str fits⟩
  · exact ⟨_, login.str fits⟩
  · exact ⟨_, pass.str fits⟩
  · exact ⟨_, host.str fits⟩
  · exact ⟨_, port.str fits⟩
  · exact ⟨_, tail.str fits⟩

/-! ## The host -/

/-- The host that is found from `i` on is a range of the text. -/
structure HostFits (u : Url) (i : ℕ) : Prop where
  ordered : u.hostBegin i ≤ u.hostEnd i
  end_le : u.hostEnd i ≤ u.mUrl.length
  inside : i < u.mUrl.length
  positive : u.mPass.isSet = true → 0 < i

namespace Fresh

variable {t : Url} {b k i n : ℕ}

theorem pass_positive (fresh : Fresh t b k) (isSet : t.mPass.isSet = true) : 0 < k := by
  rcases fresh.pass with none | ⟨_, z, w, _, _, _, behind, _⟩
  · rw [none] at isSet
    cases isSet
  · exact Nat.lt_of_le_of_lt (Nat.zero_le w) behind

theorem hostFits_of_unset (fresh : Fresh t b k) (ahead : k ≤ i) (inside : i < t.mUrl.length) :
    HostFits t i := by
  have ends : t.hostEnd i = i := by
    rw [hostEnd, fresh.port_unset, if_neg Bool.false_ne_true]
  exact {
    ordered := by
      rw [ends]
      exact fresh.hostBegin_le ahead (Nat.le_refl i) inside (clear_of_le (Nat.le_refl i))
    end_le := by
      rw [ends]
      exact Nat.le_of_lt inside
    inside := inside
    positive := fun isSet => Nat.lt_of_lt_of_le (fresh.pass_positive isSet) ahead }

theorem hostFits_of_port (fresh : Fresh t b k) (ahead : k ≤ i)
    (begins : BeginsPort t.mUrl b i n) (host : SubString) :
    HostFits { t with mPort := .between (i + 1) n, mHost := host } n := by
  have inside := begins.lt_length
  have long := begins.portAt.1
  have isSet : (SubString.between (i + 1) n).isSet = true := SubString.isSet_between.mpr long
  have ends : hostEnd { t with mPort := .between (i + 1) n, mHost := host } n = i := by
    rw [hostEnd, if_pos isSet, rfind, begins.lastUpTo_colon, Option.getD_some]
  exact {
    ordered := by
      rw [ends]
      exact (fresh.finish_port false ahead begins).1
    end_le := by
      rw [ends]
      exact Nat.le_of_lt (by omega : i < t.mUrl.length)
    inside := inside
    positive := fun isSet => Nat.lt_of_lt_of_le (fresh.pass_positive isSet) (by omega) }

end Fresh

namespace Trace

variable {ndebug : Bool} {u : Url} {b i n : ℕ}

theorem set_only {m : List Char} {first last : ℕ} (ordered : first ≤ last)
    (inside : last ≤ m.length) : (set ndebug first last).Only (Event.InBounds m) :=
  Traced.only_report ⟨ordered, inside⟩ (Traced.only_silent _)

theorem fillHost_only (fits : HostFits u i) :
    (fillHost ndebug u i).Only (Event.InBounds u.mUrl) := by
  have ranged : (set ndebug (u.hostBegin i) (u.hostEnd i)).Only (Event.InBounds u.mUrl) :=
    set_only fits.ordered fits.end_le
  rw [fillHost]
  split_ifs with isSet
  · exact Traced.only_report ⟨fits.positive isSet, Nat.le_of_lt fits.inside⟩
      (Traced.only_map _ ranged)
  · exact Traced.only_map _ ranged

/-! ## The fill functions -/

theorem fillProto_only (inside : i ≤ u.mUrl.length) :
    (fillProto ndebug u i).Only (Event.InBounds u.mUrl) := by
  rw [fillProto]
  split_ifs
  · exact Traced.only_silent _
  · exact Traced.only_silent _
  · exact Traced.only_map _ (set_only (Nat.zero_le i) inside)
  · exact Traced.only_silent _

/-- A port that is found is a range of the text, if the host behind it is. -/
theorem fillPort_only (hm : Sealed u.mUrl) (colon : u.mUrl[i]? = some ':')
    (host : ∀ n, PortAt u.mUrl i n → HostFits { u with mPort := .between (i + 1) n } n) :
    (fillPort ndebug u i).Only (Event.InBounds u.mUrl) := by
  obtain ⟨n, first⟩ := hm.exists_not_digit colon
  obtain ⟨behind, hit, clear⟩ := firstFrom_eq_some.mp first
  have inside := hit.lt_length
  have fits := hm.fits
  have found : findFirstNotOf u.mUrl digits (i + 1) = n := by
    rw [findFirstNotOf, first, Option.getD_some]
  have somewhere : n ≠ npos := by
    rw [npos]
    omega
  simp only [fillPort, found, somewhere, false_or, if_false]
  split_ifs with isSet portAt
  · exact Traced.only_silent _
  · refine Traced.only_bind (set_only behind (Nat.le_of_lt inside)) fun port set => ?_
    rw [set_result, SubString.set_eq behind (by omega)] at set
    cases set
    exact Traced.only_map _ (fillHost_only (host n ⟨by omega, portAt.1, clear⟩))
  · exact Traced.only_silent _

/-- The `'/'` before a login is the second of a `"://"`. -/
theorem fillLogin_only (segment : SegmentStart u.mUrl b) (start_le : b ≤ i)
    (inside : i < u.mUrl.length) (clear : Clear (· == '/') u.mUrl b (i + 1)) :
    (fillLogin ndebug u i).Only (Event.InBounds u.mUrl) := by
  rw [fillLogin]
  dsimp only
  split_ifs with isSet missing
  · exact Traced.only_silent _
  · exact Traced.only_map _ (set_only (Nat.zero_le i) (Nat.le_of_lt inside))
  · cases last : lastUpTo (· == '/') u.mUrl i with
    | none =>
        rw [rfind, last] at missing
        exact absurd rfl missing
    | some delim =>
        obtain ⟨delim_le, hit, _⟩ := lastUpTo_eq_some.mp last
        have found : rfind u.mUrl '/' i = delim := by
          rw [rfind, last, Option.getD_some]
        have before : delim < b := by
          by_contra later
          exact clear delim (by omega) (by omega) hit
        have positive : 0 < delim := by
          rcases segment with rfl | ⟨long, _, _, third⟩
          · omega
          · by_contra zero
            have miss := (lastUpTo_eq_some.mp last).2.2 (b - 1) (by omega) (by omega)
            rw [show b - 3 + 2 = b - 1 by omega] at third
            exact miss (hit_beq_iff.mpr third)
        rw [found]
        refine Traced.only_report ⟨positive, by omega⟩ ?_
        cases u.mUrl[(delim + npos) % 2 ^ 64]? with
        | none => exact Traced.only_silent _
        | some c =>
            dsimp only
            split_ifs
            · exact Traced.only_map _ (set_only (by omega) (Nat.le_of_lt inside))
            · exact Traced.only_silent _

/-- Before the `'@'` there is the `':'` of the login. -/
theorem fillPass_only (hm : Sealed u.mUrl) (inside : i < u.mUrl.length)
    (colon : u.mLogin.isSet = true →
      0 < i ∧ ∃ c, lastUpTo (· == ':') u.mUrl (i - 1) = some c) :
    (fillPass ndebug u i).Only (Event.InBounds u.mUrl) := by
  have fits := hm.fits
  rw [fillPass]
  dsimp only
  split_ifs with passSet loginSet
  · exact Traced.only_silent _
  · exact Traced.only_silent _
  · rw [Bool.not_eq_true', Bool.not_eq_false] at loginSet
    obtain ⟨positive, c, last⟩ := colon loginSet
    have c_le := (lastUpTo_eq_some.mp last).1
    have before : (i + npos) % 2 ^ 64 = i - 1 := by
      rw [npos]
      omega
    have found : rfind u.mUrl ':' (i - 1) = c := by
      rw [rfind, last, Option.getD_some]
    rw [before, found, show (c + 1) % 2 ^ 64 = c + 1 by omega]
    exact Traced.only_report ⟨positive, Nat.le_of_lt inside⟩
      (Traced.only_map _ (set_only (by omega) (Nat.le_of_lt inside)))

theorem fillTail_only (fits : HostFits u i) :
    (fillTail ndebug u i).Only (Event.InBounds u.mUrl) := by
  refine Traced.only_bind (fillHost_only fits) fun after filled => ?_
  rw [fillHost_result] at filled
  rw [(fillHost_changes filled).1]
  exact Traced.only_map _ (set_only fits.inside (Nat.le_refl _))

end Trace

/-! ## Rounds -/

/-- Where a round of the parser begins, for a new object with this text. -/
inductive Visited (m : List Char) : Url × ℕ → Prop where
  | scanning {t : Url} {b k : ℕ} (fresh : Fresh t b k) (text : t.mUrl = m) (inside : k ≤ m.length) :
      Visited m (t, k)
  | port {t : Url} {b k i n : ℕ} (fresh : Fresh t b k) (text : t.mUrl = m) (ahead : k ≤ i)
      (begins : BeginsPort t.mUrl b i n) (host : SubString) :
      Visited m ({ t with mPort := .between (i + 1) n, mHost := host }, n)

/-- What holds of a round whether or not it comes to an `assert(false)`. -/
structure Continues (m : List Char) (turn : Trace.Turn) : Prop where
  inBounds : turn.Only (Event.InBounds m)
  visited : ∀ next, turn.result = .ok (.inl next) → Visited m next
  returned : ∀ f, turn.result = .ok (.inr f) → f.mUrl = m ∧ f.InText

/-- A round from `k` on is in bounds, and only an `assert(false)` keeps it from getting ahead. -/
structure Proceeds (m : List Char) (k : ℕ) (turn : Trace.Turn) : Prop extends Continues m turn where
  advances : ∀ next, turn.result = .ok (.inl next) → k < next.2 ∨ .assertFalse ∈ turn.events
  failed : ∀ fault, turn.result = .error fault → .assertFalse ∈ turn.events

section Turns

variable {m : List Char} {k : ℕ} {turn : Trace.Turn}

theorem continues_inl {next : Url × ℕ} (visited : Visited m next) :
    Continues m (.silent (.ok (.inl next))) where
  inBounds := Traced.only_silent _
  visited := by
    rintro _ ⟨⟩
    exact visited
  returned := by
    rintro _ ⟨⟩

theorem proceeds_inr {f : Url} (text : f.mUrl = m) (inText : f.InText) :
    Proceeds m k (.silent (.ok (.inr f))) where
  inBounds := Traced.only_silent _
  visited := by
    rintro _ ⟨⟩
  returned := by
    rintro _ ⟨⟩
    exact ⟨text, inText⟩
  advances := by
    rintro _ ⟨⟩
  failed := by
    rintro _ ⟨⟩

/-- An `assert(false)` stops the process or is left out. -/
theorem proceeds_assertFalse {ndebug : Bool} (after : Continues m turn) :
    Proceeds m k (Trace.assertFalse ndebug turn) := by
  have reported : Event.assertFalse ∈ (Trace.assertFalse ndebug turn).events :=
    List.mem_cons_self
  cases ndebug with
  | false =>
      exact {
        inBounds := Traced.only_report trivial (Traced.only_silent _)
        visited := by rintro _ ⟨⟩
        returned := by rintro _ ⟨⟩
        advances := by rintro _ ⟨⟩
        failed := fun _ _ => reported }
  | true =>
      exact {
        inBounds := Traced.only_report trivial after.inBounds
        visited := after.visited
        returned := after.returned
        advances := fun _ _ => .inr reported
        failed := fun _ _ => reported }

variable {filled : Trace.Reports (Option (Url × ℕ))} {otherwise : Trace.Turn}

theorem proceeds_of_accepted {next : Url × ℕ} (only : filled.Only (Event.InBounds m))
    (accepted : filled.result = .ok (some next)) (visited : Visited m next) (ahead : k < next.2) :
    Proceeds m k (Trace.tried filled otherwise) := by
  have result : (Trace.tried filled otherwise).result = .ok (.inl next) := by
    rw [Trace.tried, Traced.result_bind, accepted]
    rfl
  exact {
    inBounds := by
      refine Traced.only_bind only fun value ended => ?_
      rw [accepted] at ended
      cases ended
      exact Traced.only_silent _
    visited := by
      rw [result]
      rintro _ ⟨⟩
      exact visited
    returned := by
      rw [result]
      rintro _ ⟨⟩
    advances := by
      rw [result]
      rintro _ ⟨⟩
      exact .inl ahead
    failed := by
      rw [result]
      rintro _ ⟨⟩ }

theorem proceeds_of_refused (only : filled.Only (Event.InBounds m))
    (refused : filled.result = .ok none) (after : Proceeds m k otherwise) :
    Proceeds m k (Trace.tried filled otherwise) := by
  have result : (Trace.tried filled otherwise).result = otherwise.result := by
    rw [Trace.tried, Traced.result_bind, refused]
    rfl
  have reported (event : Event) (member : event ∈ otherwise.events) :
      event ∈ (Trace.tried filled otherwise).events :=
    Traced.mem_bind refused member
  exact {
    inBounds := by
      refine Traced.only_bind only fun value ended => ?_
      rw [refused] at ended
      cases ended
      exact after.inBounds
    visited := by
      rw [result]
      exact after.visited
    returned := by
      rw [result]
      exact after.returned
    advances := by
      rw [result]
      exact fun next ended => (after.advances next ended).imp_right (reported _)
    failed := by
      rw [result]
      exact fun fault ended => reported _ (after.failed fault ended) }

end Turns

section Cases

variable {ndebug : Bool} {u : Url} {k i n : ℕ}

theorem fillTail_eq (hm : Sealed u.mUrl) (fits : HostFits u i) :
    fillTail ndebug u i = .ok (some ({ u with
      mHost := .between (u.hostBegin i) (u.hostEnd i)
      mTail := .between (i + 1) u.mUrl.length }, i)) := by
  have short := hm.fits
  have end_le := fits.end_le
  rw [fillTail, fillHost, SubString.set_eq fits.ordered (by omega)]
  simp only [Except.map, Except.bind, SubString.set_eq fits.inside (by omega : _ < 2 ^ 64)]

/-- A `'/'`, or what is taken for one, ends the parsing. -/
theorem proceeds_caseSlash (hm : Sealed u.mUrl) (fits : HostFits u i)
    (named : Inside u.mUrl u.mProto ∧ Inside u.mUrl u.mLogin ∧ Inside u.mUrl u.mPass)
    (port : Inside u.mUrl u.mPort) : Proceeds u.mUrl k (Trace.caseSlash ndebug u i) := by
  have filled : fillTail ndebug u i = _ := fillTail_eq hm fits
  have result : (Trace.caseSlash ndebug u i).result = .ok (.inr { u with
      mHost := .between (u.hostBegin i) (u.hostEnd i)
      mTail := .between (i + 1) u.mUrl.length
      mValid := true }) := by
    rw [Trace.caseSlash, Traced.result_bind, Trace.fillTail_result, filled]
    rfl
  obtain ⟨proto, login, pass⟩ := named
  exact {
    inBounds := by
      refine Traced.only_bind (Trace.fillTail_only fits) fun value ended => ?_
      rw [Trace.fillTail_result, filled] at ended
      cases ended
      exact Traced.only_silent _
    visited := by
      rw [result]
      rintro _ ⟨⟩
    returned := by
      rw [result]
      rintro _ ⟨⟩
      exact ⟨rfl, proto, login, pass, ⟨_, _, rfl, fits.ordered, fits.end_le⟩, port,
        ⟨_, _, rfl, fits.inside, Nat.le_refl _⟩⟩
    advances := by
      rw [result]
      rintro _ ⟨⟩
    failed := by
      rw [result]
      rintro _ ⟨⟩ }

theorem Trace.body_eq (hm : Sealed u.mUrl) (found : nextDelimiter u.mUrl k = some i) :
    Trace.body ndebug (u, k) =
      if u.mUrl[i]? = some ':' then Trace.caseColon ndebug u i
      else if u.mUrl[i]? = some '/' then Trace.caseSlash ndebug u i
      else if u.mUrl[i]? = some '@' then Trace.caseAt ndebug u i
      else Trace.caseDefault ndebug u i := by
  obtain ⟨k_le, delimiter, _⟩ := nextDelimiter_eq_some.mp found
  have inside : i < u.mUrl.length := by
    rcases delimiter with here | here | here <;> exact (List.getElem?_eq_some_iff.mp here).1
  have fits := hm.fits
  have first : findFirstOf u.mUrl [':', '/', '@'] k = i := by
    rw [findFirstOf, ← nextDelimiter, found, Option.getD_some]
  have somewhere : i ≠ npos := by
    rw [npos]
    omega
  simp only [Trace.body, if_pos (by omega : k < u.mUrl.length), first, if_neg somewhere]

theorem Trace.body_slash (hm : Sealed u.mUrl) (found : nextDelimiter u.mUrl k = some i)
    (slash : u.mUrl[i]? = some '/') :
    Trace.body ndebug (u, k) = Trace.caseSlash ndebug u i := by
  rw [Trace.body_eq hm found, slash, if_neg (by decide), if_pos rfl]

end Cases

namespace Fresh

variable {ndebug : Bool} {t : Url} {b k i n : ℕ}

theorem named (fresh : Fresh t b k) (inside : k ≤ t.mUrl.length) :
    Inside t.mUrl t.mProto ∧ Inside t.mUrl t.mLogin ∧ Inside t.mUrl t.mPass := by
  obtain ⟨x, proto, x_le, -⟩ := fresh.proto_le inside
  refine ⟨⟨0, x, proto, Nat.zero_le x, x_le⟩, fresh.login_le inside, ?_⟩
  rcases fresh.pass_le inside with none | ⟨-, z, w, pass, -, ordered, w_le⟩
  · rw [none]
    exact inside_empty
  · exact ⟨z, w, pass, ordered, w_le⟩

theorem port_inside (fresh : Fresh t b k) : Inside t.mUrl t.mPort := by
  rw [fresh.port]
  exact inside_empty

/-- At a delimiter that is refused. -/
theorem later (fresh : Fresh t b k) (found : nextDelimiter t.mUrl k = some i) : Fresh t b i := by
  have ahead := (nextDelimiter_eq_some.mp found).1
  obtain ⟨x, y, login, ordered, below⟩ := fresh.login
  exact { fresh with
    start_le := Nat.le_trans fresh.start_le ahead
    clear := fresh.toScanning.clear_next found
    login := ⟨x, y, login, ordered, Nat.le_trans below ahead⟩
    login_colon := by
      intro isSet
      obtain ⟨colon, behind⟩ := fresh.login_colon isSet
      exact ⟨colon, Nat.lt_of_lt_of_le behind ahead⟩
    pass := by
      rcases fresh.pass with none | ⟨isSet, z, w, pass, after, le, behind, here⟩
      · exact .inl none
      · exact .inr ⟨isSet, z, w, pass, after, le, Nat.lt_of_lt_of_le behind ahead, here⟩ }

/-- Without an own meaning a `':'` is taken for a `'/'` where there are no assertions. -/
theorem proceeds_colon (fresh : Fresh t b k) (found : nextDelimiter t.mUrl k = some i)
    (ends : EndsLogin t.mUrl b i) : Proceeds t.mUrl k (Trace.caseColon ndebug t i) := by
  have ahead := (nextDelimiter_eq_some.mp found).1
  have inside := ends.lt_length
  have behind := fresh.start_le
  have noSlash : ¬Hit (· == '/') t.mUrl i := fun hit => ends.not_slash (hit_beq_iff.mp hit)
  have clear := (fresh.toScanning.clear_next found).snoc noSlash
  refine proceeds_of_refused (Trace.fillProto_only (Nat.le_of_lt inside)) ?_ ?_
  · rw [Trace.fillProto_result, fresh.toScanning.fillProto_refuses ends.inName]
  refine proceeds_of_refused (Trace.fillPort_only fresh.isSealed ends.colon ?_) ?_ ?_
  · exact fun n portAt => absurd portAt (ends.noPort n)
  · rw [Trace.fillPort_result, fillPort_refuses fresh.isSealed ends.colon (.inr ends.noPort)]
  have only : (Trace.fillLogin ndebug t i).Only (Event.InBounds t.mUrl) :=
    Trace.fillLogin_only fresh.segment (by omega) inside clear
  cases isSet : t.mLogin.isSet with
  | false =>
      refine proceeds_of_accepted only ?_
        (.scanning (fresh.next_login found ends isSet) rfl inside) (Nat.lt_succ_of_le ahead)
      rw [Trace.fillLogin_result,
        fillLogin_accepts fresh.isSealed isSet fresh.segment (by omega) inside clear]
  | true =>
      have slash : Proceeds t.mUrl k (Trace.caseSlash ndebug t i) :=
        proceeds_caseSlash fresh.isSealed (fresh.hostFits_of_unset ahead inside)
          (fresh.named (by omega)) fresh.port_inside
      refine proceeds_of_refused only ?_ (proceeds_assertFalse slash.toContinues)
      rw [Trace.fillLogin_result, fillLogin_refuses isSet]

theorem proceeds_at (fresh : Fresh t b k) (found : nextDelimiter t.mUrl k = some i)
    (here : t.mUrl[i]? = some '@') : Proceeds t.mUrl k (Trace.caseAt ndebug t i) := by
  have ahead := (nextDelimiter_eq_some.mp found).1
  have inside := (List.getElem?_eq_some_iff.mp here).1
  have only : (Trace.fillPass ndebug t i).Only (Event.InBounds t.mUrl) := by
    refine Trace.fillPass_only fresh.isSealed inside fun isSet => ?_
    obtain ⟨c, positive, last, -⟩ := fresh.next_at found here isSet
    exact ⟨positive, c, last⟩
  by_cases accepted : t.mPass.isSet = false ∧ t.mLogin.isSet = true
  · obtain ⟨c, positive, last, next⟩ := fresh.next_at found here accepted.2
    refine proceeds_of_accepted only ?_ (.scanning next rfl inside) (Nat.lt_succ_of_le ahead)
    rw [Trace.fillPass_result,
      fillPass_accepts fresh.isSealed accepted.1 accepted.2 positive inside last]
  · have refused : t.mPass.isSet = true ∨ t.mLogin.isSet = false := by
      rw [not_and_or, Bool.not_eq_false, Bool.not_eq_true] at accepted
      exact accepted
    have stays : Proceeds t.mUrl k (Trace.caseDefault ndebug t i) :=
      proceeds_assertFalse <|
        continues_inl (.scanning (fresh.later found) rfl (Nat.le_of_lt inside))
    refine proceeds_of_refused only ?_ (proceeds_assertFalse stays.toContinues)
    rw [Trace.fillPass_result, fillPass_refuses refused]

/-- A round of a new object that has not met a port. -/
theorem proceeds (fresh : Fresh t b k) (inside : k ≤ t.mUrl.length) :
    Proceeds t.mUrl k (Trace.body ndebug (t, k)) := by
  have hm := fresh.isSealed
  rcases Nat.lt_or_ge k t.mUrl.length with before | outside
  · obtain ⟨i, found⟩ := hm.exists_delimiter before
    have ahead := (nextDelimiter_eq_some.mp found).1
    cases delimiter_of_next b found with
    | scheme ends =>
        have bound := ends.lt_length
        rw [Trace.body_eq hm found, if_pos ends.2.1]
        refine proceeds_of_accepted (Trace.fillProto_only (by omega)) ?_
          (.scanning (fresh.scheme found ends) rfl bound) (by dsimp only; omega)
        have unset : t.mProto.isSet = false := by
          rw [← Bool.not_eq_true, fresh.toScanning.proto_isSet]
          have early := ends.1
          omega
        rw [Trace.fillProto_result, fillProto_accepts hm unset ends.2]
    | port n begins =>
        have long := begins.portAt.1
        have bound := begins.lt_length
        have fits (other : ℕ) (portAt : PortAt t.mUrl i other) :
            HostFits { t with mPort := .between (i + 1) other } other :=
          fresh.hostFits_of_port ahead ⟨begins.colon, begins.inName, portAt⟩ t.mHost
        have host := fits n begins.portAt
        have short := hm.fits
        have end_le : _ ≤ t.mUrl.length := host.end_le
        have accepted : fillPort ndebug t i = _ :=
          fillPort_accepts hm fresh.port_unset begins.portAt
        rw [fillHost, SubString.set_eq host.ordered (by omega), ← Trace.fillPort_result] at accepted
        rw [Trace.body_eq hm found, if_pos begins.colon]
        refine proceeds_of_refused (Trace.fillProto_only (by omega)) ?_ ?_
        · rw [Trace.fillProto_result, fresh.toScanning.fillProto_refuses begins.inName]
        · exact proceeds_of_accepted (Trace.fillPort_only hm begins.colon fits) accepted
            (.port fresh rfl ahead begins _) (by dsimp only; omega)
    | login ends =>
        rw [Trace.body_eq hm found, if_pos ends.colon]
        exact fresh.proceeds_colon found ends
    | atSign here =>
        rw [Trace.body_eq hm found, here, if_neg (by decide), if_neg (by decide), if_pos rfl]
        exact fresh.proceeds_at found here
    | slash here =>
        have bound := (List.getElem?_eq_some_iff.mp here).1
        rw [Trace.body_slash hm found here]
        exact proceeds_caseSlash hm (fresh.hostFits_of_unset ahead bound) (fresh.named inside)
          fresh.port_inside
  · rw [Trace.body, if_neg (Nat.not_lt.mpr outside)]
    obtain ⟨proto, login, pass⟩ := fresh.named inside
    refine proceeds_inr rfl ⟨proto, login, pass, ?_, fresh.port_inside, ?_⟩
    · change Inside t.mUrl t.mHost
      rw [fresh.host]
      exact inside_empty
    · change Inside t.mUrl t.mTail
      rw [fresh.tail]
      exact inside_empty

end Fresh

/-! ## Whole parses -/

section Parses

variable {ndebug : Bool} {m : List Char} {u : Url} {k : ℕ}

theorem Visited.proceeds (ndebug : Bool) (visited : Visited m (u, k)) :
    u.mUrl = m ∧ Proceeds m k (Trace.body ndebug (u, k)) := by
  cases visited with
  | scanning fresh text inside =>
      obtain rfl := text
      exact ⟨rfl, fresh.proceeds inside⟩
  | port fresh text ahead begins host =>
      rename_i t b before i
      obtain rfl := text
      have slash := begins.portAt.2.1
      have bound := begins.lt_length
      have behind := begins.portAt.le
      have found : nextDelimiter t.mUrl k = some k :=
        nextDelimiter_eq_some.mpr ⟨Nat.le_refl k, .inr (.inl slash), clear_of_le (Nat.le_refl k)⟩
      refine ⟨rfl, ?_⟩
      rw [Trace.body_slash (u := { t with mPort := .between (i + 1) k, mHost := host })
        fresh.isSealed found slash]
      exact proceeds_caseSlash (u := { t with mPort := .between (i + 1) k, mHost := host })
        fresh.isSealed (fresh.hostFits_of_port ahead begins host) (fresh.named (by omega))
        ⟨i + 1, k, rfl, behind, Nat.le_of_lt bound⟩

/-- Every round begins in a state of these kinds. -/
theorem Visited.of_visits {start state : Url × ℕ} (first : Visited m start)
    (visits : Visits (body ndebug) start state) : Visited m state := by
  induction visits with
  | start => exact first
  | round visited again ih =>
      rename_i before next
      obtain ⟨t, k⟩ := before
      obtain ⟨_, turn⟩ := ih.proceeds ndebug
      rw [← Trace.body_result] at again
      exact turn.visited next (Trace.round_eq_inl.mp again)

end Parses

/-- A round does nothing out of bounds, gets ahead unless it comes to an `assert(false)`, and fails
nowhere else. -/
structure RoundInBounds (ndebug : Bool) (m : List Char) (state : Url × ℕ) : Prop where
  text : state.1.mUrl = m
  inBounds : ∀ event ∈ (Trace.body ndebug state).events, event.InBounds m
  advances : ∀ next, body ndebug state = .inl next →
    state.2 < next.2 ∨ .assertFalse ∈ (Trace.body ndebug state).events
  failed : ∀ fault, body ndebug state = .inr (.error fault) →
    .assertFalse ∈ (Trace.body ndebug state).events

theorem Visited.roundInBounds {m : List Char} {state : Url × ℕ} (ndebug : Bool)
    (visited : Visited m state) : RoundInBounds ndebug m state := by
  obtain ⟨u, k⟩ := state
  obtain ⟨text, turn⟩ := visited.proceeds ndebug
  refine ⟨text, turn.inBounds, ?_, ?_⟩
  · intro next again
    rw [← Trace.body_result] at again
    exact turn.advances next (Trace.round_eq_inl.mp again)
  · intro fault failed
    rw [← Trace.body_result] at failed
    exact turn.failed fault (Trace.round_eq_error.mp failed)

/-- **What a new `Url` does with its text is in bounds**, in every round, and what it returns can be
read. -/
theorem parse_is_in_bounds (ndebug : Bool) {url : List Char} (fits : url.length < maxSize) :
    (∀ state, Visits (body ndebug) ({ mUrl := url ++ ['/'] }, 0) state →
      RoundInBounds ndebug (url ++ ['/']) state) ∧
    ∀ f, Constructs ndebug url (.ok f) → f.Readable := by
  have hm := sealed_append fits
  have first : Visited (url ++ ['/']) ({ mUrl := url ++ ['/'] }, 0) :=
    .scanning (fresh_start hm) rfl (Nat.zero_le _)
  refine ⟨fun state visits => (first.of_visits visits).roundInBounds ndebug, fun f made => ?_⟩
  obtain ⟨⟨t, k⟩, visits, returned⟩ := Ends.exists_last (sets_iff.mp made) .start
  obtain ⟨_, turn⟩ := (first.of_visits visits).proceeds ndebug
  rw [← Trace.body_result] at returned
  obtain ⟨text, inText⟩ := turn.returned f (Trace.round_eq_ok.mp returned)
  exact inText.readable (text ▸ hm.fits)

/-- A text without any component: its `':'` ends an empty login. -/
theorem parse_is_in_bounds_colon :
    RoundInBounds false [':', '/'] ({ mUrl := [':', '/'] }, 0) ∧
      ∃ f, Constructs false [':'] (.ok f) ∧ f.Readable := by
  have inBounds := parse_is_in_bounds false (show [':'].length < maxSize by decide)
  have made : Constructs false [':'] (.ok {
      mUrl := [':', '/']
      mHost := .between 0 1
      mTail := .between 2 2
      mValid := true }) := ⟨2, by decide +kernel⟩
  exact ⟨inBounds.1 _ .start, _, made, inBounds.2 _ made⟩

end Url

end Jasl
