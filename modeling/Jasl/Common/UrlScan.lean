import Jasl.Common.UrlRounds

/-!
# A parse by a new object

What a delimiter is for in a segment (`Delimiter`), and what holds of a new object
between two rounds (`Fresh`): its ranges are ordered, they lie before the offset, and
the delimiters that end them stand where they end. So the host is found between its
neighbours and `fill_host` never fails (`Fresh.finish_slash`, `Fresh.finish_port`), and
after the parse all ranges lie in the text (`Fresh.parsed`).
-/

set_option autoImplicit false

namespace Jasl

open Library StdString

namespace Url

/-! ## What a delimiter is for -/

/-- The `':'` at `i` ends a login in the segment from `b` on. -/
structure EndsLogin (m : List Char) (b i : ℕ) : Prop where
  colon : m[i]? = some ':'
  inName : ¬EndsProto m b i
  noPort : ∀ n, ¬PortAt m i n

/-- The `':'` at `i` begins a port, which the `'/'` at `n` ends. -/
structure BeginsPort (m : List Char) (b i n : ℕ) : Prop where
  colon : m[i]? = some ':'
  inName : ¬EndsProto m b i
  portAt : PortAt m i n

/-- What the delimiter at `i` is for in the segment from `b` on. -/
inductive Delimiter (m : List Char) (b i : ℕ) : Prop where
  | scheme (ends : EndsProto m b i)
  | port (n : ℕ) (begins : BeginsPort m b i n)
  | login (ends : EndsLogin m b i)
  | atSign (here : m[i]? = some '@')
  | slash (here : m[i]? = some '/')

section Text

variable {m : List Char} {b k i n : ℕ}

theorem delimiter_of_next (b : ℕ) (found : nextDelimiter m k = some i) : Delimiter m b i := by
  rcases (nextDelimiter_eq_some.mp found).2.1 with colon | slash | atSign
  · by_cases ends : EndsProto m b i
    · exact .scheme ends
    · by_cases port : ∃ n, PortAt m i n
      · obtain ⟨n, portAt⟩ := port
        exact .port n ⟨colon, ends, portAt⟩
      · exact .login ⟨colon, ends, fun n portAt => port ⟨n, portAt⟩⟩
  · exact .slash slash
  · exact .atSign atSign

theorem EndsLogin.not_slash (ends : EndsLogin m b i) : m[i]? ≠ some '/' := by
  rw [ends.colon]
  decide

theorem EndsLogin.lt_length (ends : EndsLogin m b i) : i < m.length :=
  (List.getElem?_eq_some_iff.mp ends.colon).1

theorem EndsProto.lt_length (ends : EndsProto m b i) : i + 2 < m.length := ends.2.lt_length

theorem BeginsPort.lt_length (begins : BeginsPort m b i n) : n < m.length :=
  begins.portAt.lt_length

/-- The digits of a port hide no `'@'` and no `':'`. -/
theorem BeginsPort.clear (begins : BeginsPort m b i n) {c : Char}
    (notDigit : digits.contains c = false) (notSlash : c ≠ '/') : Clear (· == c) m (i + 1) (n + 1) := by
  have inDigits : Clear (· == c) m (i + 1) n := by
    refine begins.portAt.2.2.of_imp fun d same => ?_
    rw [eq_of_beq same, notDigit]
    rfl
  refine inDigits.snoc fun hit => notSlash ?_
  have here := hit_beq_iff.mp hit
  rw [begins.portAt.2.1] at here
  exact (Option.some.inj here).symm

theorem BeginsPort.lastUpTo_colon (begins : BeginsPort m b i n) :
    lastUpTo (· == ':') m n = some i :=
  lastUpTo_eq_some.mpr ⟨by have behind := begins.portAt.1; omega, hit_beq_iff.mpr begins.colon,
    begins.clear (by decide) (by decide)⟩

/-- Before the sentinel there is room for another round. -/
theorem Sealed.succ_lt_length (hm : Sealed m) {c : Char} (here : m[i]? = some c) (other : c ≠ '/') :
    i + 1 < m.length := by
  have inside := (List.getElem?_eq_some_iff.mp here).1
  have notLast : i ≠ m.length - 1 := by
    rintro rfl
    rw [hm.sentinel] at here
    exact other (Option.some.inj here).symm
  omega

end Text

/-! ## The end of a parse -/

section Finish

variable {t : Url} {b i n : ℕ}

/-- Without a port the host is read up to the `'/'`. -/
theorem finish_of_no_port (ndebug : Bool) (unset : t.mPort.isSet = false)
    (ordered : t.hostBegin i ≤ i) (inside : i < 2 ^ 64) :
    finish ndebug t i = .ok { t with
      mHost := .between (t.hostBegin i) i
      mTail := .between (i + 1) t.mUrl.length
      mValid := true } := by
  have ends : t.hostEnd i = i := by
    rw [hostEnd, unset, if_neg Bool.false_ne_true]
  rw [finish, ends, SubString.set_eq ordered inside]
  rfl

/-- With a port the host is read up to the `':'` of the port. -/
theorem finish_of_port (ndebug : Bool) (begins : BeginsPort t.mUrl b i n)
    (isSet : t.mPort.isSet = true) (ordered : t.hostBegin n ≤ i) (inside : i < 2 ^ 64) :
    finish ndebug t n = .ok { t with
      mHost := .between (t.hostBegin n) i
      mTail := .between (n + 1) t.mUrl.length
      mValid := true } := by
  have ends : t.hostEnd n = i := by
    rw [hostEnd, isSet, if_pos rfl, rfind, begins.lastUpTo_colon, Option.getD_some]
  rw [finish, ends, SubString.set_eq ordered inside]
  rfl

end Finish

/-! ## A new object between two rounds -/

/-- The ranges of an object that was new at the start of the parse. -/
structure Fresh (t : Url) (b k : ℕ) : Prop extends Scanning t b k where
  login : ∃ x y, t.mLogin = .between x y ∧ x ≤ y ∧ y ≤ k
  login_colon : t.mLogin.isSet = true → t.mUrl[t.mLogin.mEnd]? = some ':' ∧ t.mLogin.mEnd < k
  pass : t.mPass = {} ∨ t.mLogin.isSet = true ∧ ∃ z w, t.mPass = .between z w ∧
    t.mLogin.mBegin < z ∧ z ≤ w ∧ w < k ∧ t.mUrl[w]? = some '@'
  host : t.mHost = {}
  port : t.mPort = {}
  tail : t.mTail = {}

theorem fresh_start {m : List Char} (hm : Sealed m) : Fresh { mUrl := m } 0 0 where
  toScanning := scanning_start hm rfl
  login := ⟨0, 0, rfl, Nat.le_refl 0, Nat.le_refl 0⟩
  login_colon := by
    intro isSet
    cases isSet
  pass := .inl rfl
  host := rfl
  port := rfl
  tail := rfl

namespace Fresh

variable {t : Url} {b k i n : ℕ}

theorem pass_of_login_unset (fresh : Fresh t b k) (unset : t.mLogin.isSet = false) :
    t.mPass = {} := by
  rcases fresh.pass with none | ⟨isSet, _⟩
  · exact none
  · rw [unset] at isSet
    cases isSet

theorem login_begin_lt (fresh : Fresh t b k) (isSet : t.mLogin.isSet = true) :
    t.mLogin.mBegin < t.mLogin.mEnd := by
  obtain ⟨x, y, login, _⟩ := fresh.login
  rw [login] at isSet ⊢
  exact SubString.isSet_between.mp isSet

theorem port_unset (fresh : Fresh t b k) : t.mPort.isSet = false := by
  rw [fresh.port]
  rfl

theorem scheme (fresh : Fresh t b k) (found : nextDelimiter t.mUrl k = some i)
    (ends : EndsProto t.mUrl b i) : Fresh { t with mProto := .between 0 i } (i + 3) (i + 3) := by
  have ahead := (nextDelimiter_eq_some.mp found).1
  obtain ⟨x, y, login, ordered, below⟩ := fresh.login
  refine { fresh with toScanning := fresh.toScanning.next_segment ends, login := ?_,
                      login_colon := ?_, pass := ?_ }
  · exact ⟨x, y, login, ordered, by omega⟩
  · intro isSet
    obtain ⟨colon, behind⟩ := fresh.login_colon isSet
    exact ⟨colon, Nat.lt_of_lt_of_le behind (by omega)⟩
  · rcases fresh.pass with none | ⟨isSet, z, w, pass, after, le, behind, here⟩
    · exact .inl none
    · exact .inr ⟨isSet, z, w, pass, after, le, by omega, here⟩

theorem next_login (fresh : Fresh t b k) (found : nextDelimiter t.mUrl k = some i)
    (ends : EndsLogin t.mUrl b i) (unset : t.mLogin.isSet = false) :
    Fresh { t with mLogin := .between b i } b (i + 1) := by
  have ahead := (nextDelimiter_eq_some.mp found).1
  have behind := fresh.start_le
  refine { fresh with toScanning := fresh.toScanning.next rfl rfl found ends.not_slash, login := ?_,
                      login_colon := ?_, pass := ?_ }
  · exact ⟨b, i, rfl, by omega, by omega⟩
  · intro _
    exact ⟨ends.colon, Nat.lt_succ_self i⟩
  · exact .inl (fresh.pass_of_login_unset unset)

/-- An `'@'` that is accepted finds the `':'` behind the login, or a later one. -/
theorem next_at (fresh : Fresh t b k) (found : nextDelimiter t.mUrl k = some i)
    (here : t.mUrl[i]? = some '@') (isSet : t.mLogin.isSet = true) :
    ∃ c, 0 < i ∧ lastUpTo (· == ':') t.mUrl (i - 1) = some c ∧
      Fresh { t with mPass := .between (c + 1) i } b (i + 1) := by
  have ahead := (nextDelimiter_eq_some.mp found).1
  obtain ⟨colon, before⟩ := fresh.login_colon isSet
  have begins := fresh.login_begin_lt isSet
  have some_colon : ∃ c, lastUpTo (· == ':') t.mUrl (i - 1) = some c := by
    cases last : lastUpTo (· == ':') t.mUrl (i - 1) with
    | some c => exact ⟨c, rfl⟩
    | none =>
        have miss := lastUpTo_eq_none.mp last t.mLogin.mEnd (Nat.zero_le _) (by omega)
        exact absurd (hit_beq_iff.mpr colon) miss
  obtain ⟨c, last⟩ := some_colon
  obtain ⟨c_le, _, clear⟩ := lastUpTo_eq_some.mp last
  have end_le : t.mLogin.mEnd ≤ c := by
    by_contra later
    exact clear t.mLogin.mEnd (by omega) (by omega) (hit_beq_iff.mpr colon)
  obtain ⟨x, y, login, ordered, below⟩ := fresh.login
  refine ⟨c, by omega, last, { fresh with
    toScanning := fresh.toScanning.next rfl rfl found (by rw [here]; decide)
    login := ?_, login_colon := ?_, pass := ?_ }⟩
  · exact ⟨x, y, login, ordered, by omega⟩
  · intro _
    exact ⟨colon, Nat.lt_succ_of_lt (Nat.lt_of_lt_of_le before ahead)⟩
  · refine .inr ⟨isSet, c + 1, i, rfl, ?_, by omega, Nat.lt_succ_self i, here⟩
    exact Nat.lt_succ_of_le (Nat.le_trans (Nat.le_of_lt begins) end_le)

/-- A parse that comes to its end has no login where one ends. -/
theorem accepted_login {f : Url} (fresh : Fresh t b k) (found : nextDelimiter t.mUrl k = some i)
    (ends : EndsLogin t.mUrl b i) (ended : Ends (body false) (t, k) (.ok f)) :
    t.mLogin.isSet = false ∧
      Ends (body false) ({ t with mLogin := .between b i }, i + 1) (.ok f) := by
  cases isSet : t.mLogin.isSet with
  | true =>
      rw [fresh.toScanning.ends_of_refused_colon found ends.colon ends.inName (.inr ends.noPort)
        isSet] at ended
      cases ended
  | false =>
      rw [fresh.toScanning.ends_of_login found ends.colon ends.inName (.inr ends.noPort)
        isSet] at ended
      exact ⟨rfl, ended⟩

/-- A parse that comes to its end has a login and no password where one ends. -/
theorem accepted_at {f : Url} (fresh : Fresh t b k) (found : nextDelimiter t.mUrl k = some i)
    (here : t.mUrl[i]? = some '@') (ended : Ends (body false) (t, k) (.ok f)) :
    t.mPass.isSet = false ∧ t.mLogin.isSet = true ∧
      ∃ c, 0 < i ∧ lastUpTo (· == ':') t.mUrl (i - 1) = some c ∧
        Fresh { t with mPass := .between (c + 1) i } b (i + 1) ∧
        Ends (body false) ({ t with mPass := .between (c + 1) i }, i + 1) (.ok f) := by
  by_cases accepted : t.mPass.isSet = false ∧ t.mLogin.isSet = true
  · obtain ⟨c, positive, last, next⟩ := fresh.next_at found here accepted.2
    rw [ends_of_at fresh.isSealed found here accepted.1 accepted.2 positive last] at ended
    exact ⟨accepted.1, accepted.2, c, positive, last, next, ended⟩
  · have refused : t.mPass.isSet = true ∨ t.mLogin.isSet = false := by
      rw [not_and_or, Bool.not_eq_false, Bool.not_eq_true] at accepted
      exact accepted
    rw [ends_of_refused_at fresh.isSealed found here refused] at ended
    cases ended

/-- The host begins before the `'/'` or the port it is looked for from. -/
theorem hostBegin_le (fresh : Fresh t b k) (ahead : k ≤ i) (i_le : i ≤ n)
    (inside : n < t.mUrl.length) (clear : Clear (· == '@') t.mUrl i n) : t.hostBegin n ≤ i := by
  have fits := fresh.isSealed.fits
  rw [hostBegin]
  split_ifs with passSet protoSet
  · rcases fresh.pass with none | ⟨_, z, w, _, _, _, behind, here⟩
    · rw [none] at passSet
      cases passSet
    · have before : (n + npos) % 2 ^ 64 = n - 1 := by
        rw [npos]
        omega
      rw [before, rfind]
      cases last : lastUpTo (· == '@') t.mUrl (n - 1) with
      | none =>
          have miss := lastUpTo_eq_none.mp last w (Nat.zero_le w) (by omega)
          exact absurd (hit_beq_iff.mpr here) miss
      | some j =>
          obtain ⟨j_le, hit, _⟩ := lastUpTo_eq_some.mp last
          have j_lt : j < i := by
            by_contra later
            exact clear j (by omega) (by omega) hit
          rw [Option.getD_some]
          omega
  · have long := fresh.toScanning.proto_isSet.mp protoSet
    rcases fresh.segment with zero | ⟨_, atScheme⟩
    · omega
    · obtain ⟨j, found, j_le⟩ := exists_firstBlock (scheme_prefix_iff.mpr atScheme)
      rw [find, found, Option.getD_some]
      have behind := fresh.start_le
      omega
  · exact Nat.zero_le i

/-- The `'/'` ends a host that begins before it. -/
theorem finish_slash (ndebug : Bool) (fresh : Fresh t b k) (ahead : k ≤ i)
    (inside : i < t.mUrl.length) :
    t.hostBegin i ≤ i ∧ finish ndebug t i = .ok { t with
      mHost := .between (t.hostBegin i) i
      mTail := .between (i + 1) t.mUrl.length
      mValid := true } := by
  have fits := fresh.isSealed.fits
  have ordered := fresh.hostBegin_le ahead (Nat.le_refl i) inside (clear_of_le (Nat.le_refl i))
  exact ⟨ordered, finish_of_no_port ndebug fresh.port_unset ordered (by omega)⟩

/-- The `':'` of the port ends a host that begins before it. -/
theorem finish_port (ndebug : Bool) (fresh : Fresh t b k) (ahead : k ≤ i)
    (begins : BeginsPort t.mUrl b i n) :
    t.hostBegin n ≤ i ∧ finish ndebug { t with mPort := .between (i + 1) n } n = .ok { t with
      mPort := .between (i + 1) n
      mHost := .between (t.hostBegin n) i
      mTail := .between (n + 1) t.mUrl.length
      mValid := true } := by
  have fits := fresh.isSealed.fits
  have inside := begins.lt_length
  have long := begins.portAt.1
  have noAt : Clear (· == '@') t.mUrl i n := by
    have fromColon : Clear (· == '@') t.mUrl i (i + 1) := by
      refine (clear_of_le (Nat.le_refl i)).snoc fun hit => ?_
      have here := hit_beq_iff.mp hit
      rw [begins.colon] at here
      cases here
    exact fromColon.append ((begins.clear (by decide) (by decide)).mono (Nat.le_refl _) (by omega))
  have ordered := fresh.hostBegin_le ahead (by omega) inside noAt
  have isSet : (SubString.between (i + 1) n).isSet = true := SubString.isSet_between.mpr long
  exact ⟨ordered, finish_of_port (t := { t with mPort := .between (i + 1) n }) ndebug begins isSet
    ordered (by omega)⟩

end Fresh

/-! ## A new object after the parse -/

/-- The ranges of a new object after a parse: in the text, and in order where one is found behind
another. -/
structure Parsed (f : Url) : Prop where
  isSealed : Sealed f.mUrl
  isValid : f.mValid = true
  proto : ∃ x, f.mProto = .between 0 x ∧ x ≤ f.mUrl.length ∧ (0 < x → SchemeAt f.mUrl x)
  login : ∃ x y, f.mLogin = .between x y ∧ x ≤ y ∧ y ≤ f.mUrl.length
  pass : f.mPass = {} ∨ f.mLogin.isSet = true ∧ ∃ x y, f.mPass = .between x y ∧
    f.mLogin.mBegin < x ∧ x ≤ y ∧ y ≤ f.mUrl.length
  host : ∃ x y, f.mHost = .between x y ∧ x ≤ y ∧ y ≤ f.mUrl.length
  port : f.mPort = {} ∨ ∃ x y, f.mPort = .between x y ∧ x < y ∧ y ≤ f.mUrl.length ∧
    x < f.mTail.mBegin
  tail : f.mTail = {} ∨ ∃ x, f.mTail = .between x f.mUrl.length ∧ x ≤ f.mUrl.length ∧
    (f.mProto.isSet = true → f.mProto.mEnd + 4 ≤ x)

namespace Fresh

variable {t f : Url} {b k i n : ℕ}

theorem proto_le (fresh : Fresh t b k) (inside : k ≤ t.mUrl.length) :
    ∃ x, t.mProto = .between 0 x ∧ x ≤ t.mUrl.length ∧ (0 < x → SchemeAt t.mUrl x) := by
  have behind := fresh.start_le
  refine ⟨b - 3, fresh.proto_eq, by omega, fun long => ?_⟩
  rcases fresh.segment with zero | ⟨_, atScheme⟩
  · omega
  · exact atScheme

theorem login_le (fresh : Fresh t b k) (inside : k ≤ t.mUrl.length) :
    ∃ x y, t.mLogin = .between x y ∧ x ≤ y ∧ y ≤ t.mUrl.length := by
  obtain ⟨x, y, login, ordered, below⟩ := fresh.login
  exact ⟨x, y, login, ordered, Nat.le_trans below inside⟩

theorem pass_le (fresh : Fresh t b k) (inside : k ≤ t.mUrl.length) :
    t.mPass = {} ∨ t.mLogin.isSet = true ∧ ∃ x y, t.mPass = .between x y ∧
      t.mLogin.mBegin < x ∧ x ≤ y ∧ y ≤ t.mUrl.length := by
  rcases fresh.pass with none | ⟨isSet, z, w, pass, after, ordered, below, _⟩
  · exact .inl none
  · exact .inr ⟨isSet, z, w, pass, after, ordered, Nat.le_trans (Nat.le_of_lt below) inside⟩

/-- A tail begins behind the protocol, its `"://"` and a further `'/'`. -/
theorem tail_ahead (fresh : Fresh t b k) (ahead : k ≤ n) (isSet : t.mProto.isSet = true) :
    t.mProto.mEnd + 4 ≤ n + 1 := by
  have long := fresh.toScanning.proto_isSet.mp isSet
  have behind := fresh.start_le
  rw [fresh.proto_eq, SubString.between_mEnd]
  omega

/-- **A new object is in order after a parse.** -/
theorem parsed (fresh : Fresh t b k) (inside : k ≤ t.mUrl.length)
    (ended : Ends (body false) (t, k) (.ok f)) : Parsed f := by
  have hm := fresh.isSealed
  induction rest : t.mUrl.length - k using Nat.strongRecOn generalizing t b k with
  | _ rest ih =>
      subst rest
      rcases Nat.lt_or_ge k t.mUrl.length with before | outside
      · obtain ⟨i, found⟩ := hm.exists_delimiter before
        have ahead := (nextDelimiter_eq_some.mp found).1
        cases delimiter_of_next b found with
        | scheme ends =>
            have bound := ends.lt_length
            rw [fresh.toScanning.ends_of_scheme found ends] at ended
            exact ih _ (by change t.mUrl.length - (i + 3) < _; omega) (fresh.scheme found ends)
              (by change i + 3 ≤ t.mUrl.length; omega) ended hm rfl
        | port n begins =>
            have bound := begins.lt_length
            have behind := begins.portAt.1
            rw [fresh.toScanning.ends_of_port found begins.colon begins.inName fresh.port_unset
              begins.portAt] at ended
            obtain ⟨ordered, finished⟩ := fresh.finish_port false ahead begins
            rw [finished] at ended
            cases ended
            exact {
              isSealed := hm
              isValid := rfl
              proto := fresh.proto_le inside
              login := fresh.login_le inside
              pass := fresh.pass_le inside
              host := ⟨_, i, rfl, ordered, by change i ≤ t.mUrl.length; omega⟩
              port := .inr ⟨i + 1, n, rfl, behind, Nat.le_of_lt bound, Nat.lt_succ_of_lt behind⟩
              tail := .inr ⟨n + 1, rfl, bound, fresh.tail_ahead (by omega)⟩ }
        | login ends =>
            have bound := ends.lt_length
            obtain ⟨unset, later⟩ := fresh.accepted_login found ends ended
            exact ih _ (by change t.mUrl.length - (i + 1) < _; omega)
              (fresh.next_login found ends unset) (by change i + 1 ≤ t.mUrl.length; omega) later
              hm rfl
        | atSign here =>
            have bound := (List.getElem?_eq_some_iff.mp here).1
            obtain ⟨_, _, c, _, _, next, later⟩ := fresh.accepted_at found here ended
            exact ih _ (by change t.mUrl.length - (i + 1) < _; omega) next
              (by change i + 1 ≤ t.mUrl.length; omega) later hm rfl
        | slash here =>
            have bound := (List.getElem?_eq_some_iff.mp here).1
            rw [ends_of_slash hm found here] at ended
            obtain ⟨ordered, finished⟩ := fresh.finish_slash false ahead bound
            rw [finished] at ended
            cases ended
            exact {
              isSealed := hm
              isValid := rfl
              proto := fresh.proto_le inside
              login := fresh.login_le inside
              pass := fresh.pass_le inside
              host := ⟨_, i, rfl, ordered, Nat.le_of_lt bound⟩
              port := .inl fresh.port
              tail := .inr ⟨i + 1, rfl, bound, fresh.tail_ahead ahead⟩ }
      · rw [ends_of_end outside] at ended
        cases ended
        exact {
          isSealed := hm
          isValid := rfl
          proto := fresh.proto_le inside
          login := fresh.login_le inside
          pass := fresh.pass_le inside
          host := ⟨0, 0, fresh.host, Nat.le_refl 0, Nat.zero_le _⟩
          port := .inl fresh.port
          tail := .inl fresh.tail }

end Fresh

/-- What a new object is like after a parse. -/
theorem parsed_of_constructs {url : List Char} {f : Url} (fits : url.length < maxSize)
    (made : Constructs false url (.ok f)) : Parsed f :=
  (fresh_start (sealed_append fits)).parsed (Nat.zero_le _) made

end Url

end Jasl
