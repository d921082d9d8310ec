import Jasl.Common.UrlParts

/-!
# The sentinel of the parser

`parse` copies the text into `m_url` with a `'/'` behind it, so that every component ends
at a delimiter. The copy is what `url()` returns, and a tail reaches to its end. So a
new `Url` never returns the text it was given, and it returns the tail of one only when
there is none: the sentinel is then the `'/'` before the tail
(`url_returns_the_sentinel`).
-/

set_option autoImplicit false

namespace Jasl

open Library StdString Url

namespace UrlParts

variable {p : UrlParts}

/-- A new `Url` of the text returns the tail it was put together from, nothing if there is none. -/
def ReturnsTail (ndebug : Bool) (p : UrlParts) : Prop :=
  ∃ u, Constructs ndebug p.text (.ok u) ∧ u.tail = .ok (p.tail.elim [] id)

/-- It returns the text. -/
def ReturnsText (ndebug : Bool) (p : UrlParts) : Prop :=
  ∃ u, Constructs ndebug p.text (.ok u) ∧ u.url = p.text

/-- What is read as the tail: the tail and the sentinel behind it. -/
theorem parsed_tail (hm : Sealed (p.text ++ ['/'])) : p.parsed.tail = .ok p.behind := by
  have written : p.text ++ ['/'] =
      (p.protoText ++ (p.credentialsText ++ (p.host.text ++ (p.portText ++ ['/'])))) ++
        (p.behind ++ []) := by
    rw [p.text_sentinel]
    simp
  have length := p.length_sentinel
  rw [List.length_append, List.length_singleton] at length
  refine str_piece written hm.fits ?_ length
  simp [pathStart, hostEnd, hostStart, authorityStart, Nat.add_assoc]

/-- The tail with the sentinel is the tail exactly when there is none. -/
theorem behind_eq_iff : p.behind = p.tail.elim [] id ↔ p.tail = none := by
  rw [behind]
  cases p.tail with
  | none => exact iff_of_true rfl rfl
  | some tail => simp

end UrlParts

/-- **A new `Url` never returns what it was given**: the text is returned with the sentinel, and so
is the tail, if there is one. -/
theorem url_returns_the_sentinel (ndebug : Bool) (p : UrlParts) (fits : p.text.length < maxSize) :
    ¬(p.ReturnsTail ndebug ∧ p.ReturnsText ndebug) ∧
      (p.ReturnsTail ndebug ↔ p.tail = none) ∧
      ∃ u, Constructs ndebug p.text (.ok u) ∧ u.url = p.text ++ ['/'] ∧ u.tail = .ok p.behind := by
  have hm := sealed_append fits
  have made : Constructs ndebug p.text (.ok p.parsed) := p.constructs_parts fits
  refine ⟨?_, ?_, p.parsed, made, rfl, p.parsed_tail hm⟩
  · rintro ⟨-, u, other, same⟩
    obtain rfl := Except.ok.inj (sets_unique other made)
    exact absurd same (by simp [UrlParts.parsed, Url.url])
  · rw [← UrlParts.behind_eq_iff]
    constructor
    · rintro ⟨u, other, tail⟩
      obtain rfl := Except.ok.inj (sets_unique other made)
      rw [UrlParts.parsed_tail hm] at tail
      exact Except.ok.inj tail
    · intro same
      exact ⟨p.parsed, made, by rw [UrlParts.parsed_tail hm, same]⟩

/-- `h/t`. -/
def hostAndTail : UrlParts where
  proto := none
  credentials := none
  host := ⟨['h'], by decide, by simp⟩
  port := none
  tail := some ['t']

theorem url_returns_the_sentinel_host : hostAndTail.text.length < maxSize ∧
    ∃ u, Constructs false hostAndTail.text (.ok u) ∧ u.url = ['h', '/', 't', '/'] ∧
      u.tail = .ok ['t', '/'] :=
  ⟨by decide, (url_returns_the_sentinel false hostAndTail (by decide)).2.2⟩

/-- The tail of `h/t` is `t/`, and its text `h/t/`. -/
theorem sentinel_is_returned :
    ¬hostAndTail.ReturnsTail false ∧ ¬hostAndTail.ReturnsText false := by
  have made : Constructs false hostAndTail.text (.ok hostAndTail.parsed) := ⟨1, by decide +kernel⟩
  constructor
  · rintro ⟨u, other, tail⟩
    obtain rfl := Except.ok.inj (sets_unique other made)
    exact absurd tail (by decide +kernel)
  · rintro ⟨u, other, text⟩
    obtain rfl := Except.ok.inj (sets_unique other made)
    exact absurd text (by decide)

end Jasl
