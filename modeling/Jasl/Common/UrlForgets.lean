import Jasl.Common.UrlReuse

/-!
# A second text for one object

With a protocol left over, no `"://"` is accepted, and the parse ends at the first `'/'`
(`ends_with_left_proto`): the readings differ from those of a new object. Otherwise the
two are run side by side, and `Url::set` forgets the first text exactly when what it
left is of no account for the second (`set_forgets_iff`).
-/

set_option autoImplicit false

namespace Jasl

open Library StdString

namespace Url

/-! ## A protocol that is left over -/

section LeftProto

variable {s after : Url} {k e : ℕ}

/-- A round that goes on with a protocol left over stays before the first `'/'`. -/
theorem round_of_left_proto (hm : Sealed s.mUrl) (isSet : s.mProto.isSet = true)
    (first : firstFrom (· == '/') s.mUrl k = some e) {next : Url} {k' : ℕ}
    (again : body false (s, k) = .inl (next, k')) :
    next.mUrl = s.mUrl ∧ next.mProto = s.mProto ∧ firstFrom (· == '/') s.mUrl k' = some e := by
  obtain ⟨k_le, hit, clear⟩ := firstFrom_eq_some.mp first
  have inside := hit.lt_length
  obtain ⟨i, found⟩ := hm.exists_delimiter (Nat.lt_of_le_of_lt k_le inside)
  obtain ⟨k_le_i, delimiter, _⟩ := nextDelimiter_eq_some.mp found
  have i_le : i ≤ e := by
    by_contra later
    exact clear_slash_of_nextDelimiter found e k_le (by omega) hit
  have behind : s.mUrl[i]? ≠ some '/' → firstFrom (· == '/') s.mUrl (i + 1) = some e := by
    intro other
    have i_ne : i ≠ e := by
      rintro rfl
      exact other (hit_beq_iff.mp hit)
    exact firstFrom_later first (by omega) (by omega)
  rw [body_eq hm found] at again
  rcases delimiter with colon | slash | atSign
  · have noSlash : s.mUrl[i]? ≠ some '/' := by
      rw [colon]
      decide
    rw [if_pos colon, caseColon, fillProto_refuses (.inl isSet)] at again
    rcases tried_eq_inl again with accepted | ⟨_, again⟩
    · cases accepted
    rcases tried_eq_inl again with accepted | ⟨_, again⟩
    · obtain ⟨url, proto⟩ := fillPort_changes _ accepted
      have portAt := portAt_of_fillPort hm colon accepted
      have slashAt : Hit (· == '/') s.mUrl k' := hit_beq_iff.mpr portAt.2.1
      have clearTo := clear_slash_of_nextDelimiter portAt.nextDelimiter
      have place : firstFrom (· == '/') s.mUrl (i + 1) = some k' :=
        firstFrom_eq_some.mpr ⟨portAt.le, slashAt, clearTo⟩
      rw [behind noSlash] at place
      cases place
      exact ⟨url, proto,
        firstFrom_eq_some.mpr ⟨Nat.le_refl e, slashAt, clear_of_le (Nat.le_refl e)⟩⟩
    rcases tried_eq_inl again with accepted | ⟨_, again⟩
    · obtain ⟨url, proto, place⟩ := fillLogin_changes _ accepted
      refine ⟨url, proto, ?_⟩
      change k' = i + 1 at place
      rw [place]
      exact behind noSlash
    · cases again
  · rw [slash, if_neg (by decide), if_pos rfl,
      caseSlash_eq hm (List.getElem?_eq_some_iff.mp slash).1] at again
    cases again
  · have noSlash : s.mUrl[i]? ≠ some '/' := by
      rw [atSign]
      decide
    rw [atSign, if_neg (by decide), if_neg (by decide), if_pos rfl, caseAt] at again
    rcases tried_eq_inl again with accepted | ⟨_, again⟩
    · obtain ⟨url, proto, place⟩ := fillPass_changes _ accepted
      refine ⟨url, proto, ?_⟩
      change k' = i + 1 at place
      rw [place]
      exact behind noSlash
    · cases again

/-- The last round is at the first `'/'`. -/
theorem end_of_left_proto (hm : Sealed s.mUrl)
    (first : firstFrom (· == '/') s.mUrl k = some e)
    (done : body false (s, k) = .inr (.ok after)) :
    after.mUrl = s.mUrl ∧ after.mProto = s.mProto ∧
      after.mTail = .between (e + 1) s.mUrl.length := by
  obtain ⟨k_le, hit, clear⟩ := firstFrom_eq_some.mp first
  have inside := hit.lt_length
  obtain ⟨i, found⟩ := hm.exists_delimiter (Nat.lt_of_le_of_lt k_le inside)
  obtain ⟨k_le_i, delimiter, _⟩ := nextDelimiter_eq_some.mp found
  rw [body_eq hm found] at done
  rcases delimiter with colon | slash | atSign
  · rw [if_pos colon, caseColon] at done
    cases (tried_eq_inr (tried_eq_inr (tried_eq_inr done).2).2).2
  · have here : firstFrom (· == '/') s.mUrl k = some i :=
      firstFrom_eq_some.mpr ⟨k_le_i, hit_beq_iff.mpr slash, clear_slash_of_nextDelimiter found⟩
    rw [first] at here
    cases here
    rw [slash, if_neg (by decide), if_pos rfl, caseSlash_eq hm inside] at done
    obtain ⟨url, proto, _, _, tail⟩ := finish_keeps (Sum.inr.inj done)
    exact ⟨url, proto, tail⟩
  · rw [atSign, if_neg (by decide), if_neg (by decide), if_pos rfl, caseAt] at done
    cases (tried_eq_inr done).2

/-- A parse with a protocol left over ends at the first `'/'`. -/
theorem ends_with_left_proto (hm : Sealed s.mUrl) (isSet : s.mProto.isSet = true)
    (first : firstFrom (· == '/') s.mUrl k = some e)
    (ended : Ends (body false) (s, k) (.ok after)) :
    after.mUrl = s.mUrl ∧ after.mProto = s.mProto ∧
      after.mTail = .between (e + 1) s.mUrl.length := by
  refine ended.induction (motive := fun state => Sealed state.1.mUrl → state.1.mProto.isSet = true →
    firstFrom (· == '/') state.1.mUrl state.2 = some e → after.mUrl = state.1.mUrl ∧
      after.mProto = state.1.mProto ∧ after.mTail = .between (e + 1) state.1.mUrl.length)
    ?_ ?_ hm isSet first
  · intro state done hm _ first
    exact end_of_left_proto hm first done
  · intro state next again _ ih hm isSet first
    obtain ⟨url, proto, later⟩ := round_of_left_proto hm isSet first again
    rw [← url, ← proto]
    exact ih (url ▸ hm) (proto ▸ isSet) (url.symm ▸ later)

/-- The readings differ then: the used object ends before a protocol that a new one finds. -/
theorem not_endsAlike_of_left_proto {o t f : Url} (left : Parsed o) (parsed : Parsed f)
    (urlOf : f.mUrl = t.mUrl) (hm : Sealed t.mUrl) (isSet : o.mProto.isSet = true) :
    ¬EndsAlike { o with mUrl := t.mUrl, mValid := false } 0 f := by
  rintro ⟨after, ended, same⟩
  have bound := hm.fits
  have bound' := left.isSealed.fits
  have inside : 0 < t.mUrl.length := by
    have last := (List.getElem?_eq_some_iff.mp hm.sentinel).1
    omega
  have slash : Hit (· == '/') t.mUrl (t.mUrl.length - 1) := hit_beq_iff.mpr hm.sentinel
  obtain ⟨e, first, _⟩ := exists_firstFrom (Nat.zero_le _) slash
  obtain ⟨url, proto, tail⟩ := ends_with_left_proto
    (s := { o with mUrl := t.mUrl, mValid := false }) hm isSet first ended
  change after.mUrl = t.mUrl at url
  change after.mProto = o.mProto at proto
  change after.mTail = .between (e + 1) t.mUrl.length at tail
  obtain ⟨x, protoLeft, x_le, _⟩ := left.proto
  obtain ⟨p, protoOf, p_le, scheme⟩ := parsed.proto
  rw [urlOf] at p_le scheme
  have long : 0 < x := by
    rw [protoLeft] at isSet
    exact SubString.isSet_between.mp isSet
  have sameProto := same.proto
  rw [Url.proto, Url.proto, url, urlOf, proto, protoLeft, protoOf] at sameProto
  have covers := SubString.covers_of_same_str (Nat.zero_le _) (Nat.zero_le _) (by omega)
    (by omega) (by omega) sameProto
  have found : 0 < p := by omega
  have atScheme := scheme found
  have schemeEnd := atScheme.lt_length
  have e_le : e ≤ p + 1 := by
    by_contra later
    exact (firstFrom_eq_some.mp first).2.2 (p + 1) (Nat.zero_le _) (by omega)
      (hit_beq_iff.mpr atScheme.2.1)
  have sameTail := same.tail
  rw [Url.tail, Url.tail, url, urlOf, tail] at sameTail
  rcases parsed.tail with none | ⟨z, range, z_le, ahead⟩
  · rw [none, SubString.str_empty (by omega)] at sameTail
    have length := SubString.length_of_str (by omega) (by omega) (by omega) sameTail
    rw [List.length_nil] at length
    omega
  · rw [urlOf] at range z_le
    have z_ge : p + 4 ≤ z := by
      have isSetF : f.mProto.isSet = true := by
        rw [protoOf]
        exact SubString.isSet_between.mpr found
      have behind := ahead isSetF
      rw [protoOf, SubString.between_mEnd] at behind
      exact behind
    rw [range] at sameTail
    have covers := SubString.covers_of_same_str (by omega) (by omega) (by omega) (by omega)
      (by omega) sameTail
    omega

end LeftProto

/-! ## The second text -/

/-- What the first text left in the object is forgotten over this text, which has its sentinel. -/
structure LeavesNothing (o : Url) (m : List Char) : Prop where
  proto : o.mProto.isSet = false
  rest : Forgets o m 0 0

/-- **A used object forgets the first text exactly when it left nothing that the second meets.** -/
theorem set_forgets_iff {u v : List Char} (fitsU : u.length < maxSize) (fitsV : v.length < maxSize)
    {o f : Url} (first : Constructs false u (.ok o)) (new : Constructs false v (.ok f)) :
    (∃ s, Sets false o v (.ok s) ∧ SameReadings s f) ↔ LeavesNothing o (v ++ ['/']) := by
  have left := parsed_of_constructs fitsU first
  have hm : Sealed (v ++ ['/']) := sealed_append fitsV
  have ended : Ends (body false) ({ mUrl := v ++ ['/'] }, 0) (.ok f) := new
  have inside : 0 < (v ++ ['/']).length := by simp
  change EndsAlike { o with mUrl := v ++ ['/'], mValid := false } 0 f ↔ _
  cases isSet : o.mProto.isSet with
  | true =>
      have urlOf : f.mUrl = v ++ ['/'] := (sets_keeps fitsV new).1
      constructor
      · intro alike
        exact absurd alike (not_endsAlike_of_left_proto (t := { mUrl := v ++ ['/'] }) left
          (parsed_of_constructs fitsV new) urlOf hm isSet)
      · intro nothing
        have unset := nothing.proto
        rw [isSet] at unset
        cases unset
  | false =>
      have used : { o with mUrl := v ++ ['/'], mValid := false } =
          overAll { mUrl := v ++ ['/'] } o := by
        obtain ⟨x, range, _⟩ := left.proto
        have none : o.mProto = {} := by
          rw [range, SubString.isSet_eq_false_iff, SubString.between_mLength, Nat.sub_zero] at isSet
          rw [range, isSet]
          rfl
        rw [overAll, overRest, none]
      rw [used, unasked_iff left (fresh_start hm) rfl rfl inside ended]
      constructor
      · intro forgets
        exact ⟨isSet, forgets⟩
      · intro nothing
        exact nothing.rest

/-- A new `Url("h")`. -/
def hostOnly : Url where
  mUrl := ['h', '/']
  mHost := .between 0 1
  mTail := .between 2 2
  mValid := true

/-- A new `Url("g:8")`. -/
def hostAndPort : Url where
  mUrl := ['g', ':', '8', '/']
  mHost := .between 0 1
  mPort := .between 2 3
  mTail := .between 4 4
  mValid := true

theorem set_forgets_iff_hosts : Constructs false ['h'] (.ok hostOnly) ∧
    Constructs false ['g', ':', '8'] (.ok hostAndPort) ∧
    Sets false hostOnly ['g', ':', '8'] (.ok hostAndPort) ∧
    LeavesNothing hostOnly ['g', ':', '8', '/'] := by
  have first : Constructs false ['h'] (.ok hostOnly) := ⟨1, by decide +kernel⟩
  have new : Constructs false ['g', ':', '8'] (.ok hostAndPort) := ⟨2, by decide +kernel⟩
  have again : Sets false hostOnly ['g', ':', '8'] (.ok hostAndPort) := ⟨2, by decide +kernel⟩
  exact ⟨first, new, again,
    (set_forgets_iff (by decide) (by decide) first new).mp ⟨hostAndPort, again, .refl _⟩⟩

/-- A new `Url("a://b")`. -/
def protoAndHost : Url where
  mUrl := ['a', ':', '/', '/', 'b', '/']
  mProto := .between 0 1
  mHost := .between 4 5
  mTail := .between 6 6
  mValid := true

/-- A new `Url("host")`. -/
def longHost : Url where
  mUrl := ['h', 'o', 's', 't', '/']
  mHost := .between 0 4
  mTail := .between 5 5
  mValid := true

/-- The protocol of `a://b` is left over, and `h` is read for it from `host`. -/
theorem set_keeps_the_protocol : Constructs false ['a', ':', '/', '/', 'b'] (.ok protoAndHost) ∧
    Constructs false ['h', 'o', 's', 't'] (.ok longHost) ∧
    ¬∃ s, Sets false protoAndHost ['h', 'o', 's', 't'] (.ok s) ∧ SameReadings s longHost := by
  refine ⟨⟨2, by decide +kernel⟩, ⟨1, by decide +kernel⟩, ?_⟩
  rintro ⟨s, ⟨fuel, set⟩, same⟩
  have kept : s.mProto = .between 0 1 ∧ s.mUrl = ['h', 'o', 's', 't', '/'] := by
    cases fuel with
    | zero => cases set
    | succ fuel =>
        cases set
        exact ⟨rfl, rfl⟩
  have proto := same.proto
  rw [Url.proto, kept.1, kept.2] at proto
  exact absurd proto (by decide)

end Url

end Jasl
