import RubicaBot.PyVal
import RubicaBot.Regex

/-!
# RubicaBot.Link

`app/utils/regex.py`: the pattern of links and `contains_link`.
-/

namespace RubicaBot

open Py

/-- The characters, besides the two cases of an ASCII letter, that `re` accepts
for the letter under `re.IGNORECASE`. -/
def extraCases : List (Char × Char) :=
  [('i', '\u0130'), ('i', '\u0131'), ('s', '\u017f'), ('k', '\u212a')]

/-- `d` matches the lower-case ASCII character `c` under `re.IGNORECASE`. -/
def sameLetter (c d : Char) : Bool := d.toLower == c || (c, d) ∈ extraCases

/-- `[a-z0-9-]` under `re.IGNORECASE`. -/
def isHostChar (d : Char) : Bool :=
  d.isAlphanum || d == '-' || extraCases.any fun e => e.2 == d

/-- A literal text under `re.IGNORECASE`. -/
def literal (s : String) : Regex := .seqs (s.toList.map fun c => .char (sameLetter c))

/-- `\S`. -/
def nonSpace : Regex := .char fun c => !isSpace c

/-- `\w`. -/
def isWord (u : Unicode) (c : Char) : Bool := u.isAlnum c || c == '_'

/-- `(?:https?://|www\.)\S+`. -/
def urlPattern : Regex :=
  .seq (.alt (.seqs [literal "http", .opt (literal "s"), literal "://"]) (literal "www."))
    (.plus nonSpace)

/-- `(?:t\.me|…|s\.rubika\.ir)/\S+`. -/
def messengerPattern : Regex :=
  .seqs
    [.alts (["t.me", "telegram.me", "rubika.ir", "rubika.com", "rbx.ir", "rbx.im",
      "s.rubika.ir"].map literal),
    literal "/", .plus nonSpace]

/-- `\b(?:bit\.ly|…|s\.id)\b/\S*`. -/
def shortenerPattern : Regex :=
  .seqs
    [.boundary,
    .alts (["bit.ly", "t.co", "goo.gl", "is.gd", "tinyurl.com", "ow.ly", "cutt.ly", "rebrand.ly",
      "s.id"].map literal),
    .boundary, literal "/", .star nonSpace]

/-- `\b(?:[a-z0-9-]+\.)+(?:ir|…|shop)\b(?:/\S*)?`. -/
def domainPattern : Regex :=
  .seqs
    [.boundary,
    .plus (.seq (.plus (.char isHostChar)) (literal ".")),
    .alts (["ir", "com", "net", "org", "io", "me", "co", "app", "dev", "xyz", "info", "site", "biz",
      "tv", "online", "link", "shop"].map literal),
    .boundary, .opt (.seq (literal "/") (.star nonSpace))]

/-- `LINK_PATTERN`. -/
def linkPattern : Regex := .alts [urlPattern, messengerPattern, shortenerPattern, domainPattern]

/-- `contains_link`; `search` takes a `str`. -/
def containsLink (u : Unicode) (text : PyVal) : Except PyError Bool :=
  if text.truthy then
    match text with
    | .str s => .ok (linkPattern.search (isWord u) s)
    | _ => .error .typeError
  else .ok false

/-! ## every link has a character that is neither a slash nor a space -/

/-- Neither a slash nor white space. -/
def isSolid (c : Char) : Bool := c != '/' && !isSpace c

/-- White space has no case. -/
theorem toLower_of_isSpace {c : Char} (h : isSpace c = true) : c.toLower = c := by
  have hrange : ¬ (65 ≤ c.toNat ∧ c.toNat ≤ 90) := by
    simp only [isSpace, Bool.or_eq_true, Bool.and_eq_true, decide_eq_true_eq, beq_iff_eq] at h
    omega
  have hupper : ¬ (c.val ≥ 'A'.val ∧ c.val ≤ 'Z'.val) := fun hcase =>
    hrange ⟨UInt32.le_iff_toNat_le.mp hcase.1, UInt32.le_iff_toNat_le.mp hcase.2⟩
  unfold Char.toLower
  rw [dif_neg hupper]

/-- No character that another case is written with is a slash or white space. -/
theorem isSolid_extraCases : ∀ e ∈ extraCases, isSolid e.2 = true := by decide

/-- The case of a letter does not matter. -/
theorem isSolid_of_sameLetter {c d : Char} (hc : isSolid c = true) (h : sameLetter c d = true) :
    isSolid d = true := by
  simp only [sameLetter, Bool.or_eq_true, beq_iff_eq, decide_eq_true_eq] at h
  rcases h with hlower | hextra
  · by_contra hd
    simp only [isSolid, Bool.and_eq_true, bne_iff_ne, ne_eq, Bool.not_eq_true', not_and,
      Bool.not_eq_false] at hd
    have hsame : d.toLower = d := by
      by_cases hslash : d = '/'
      · rw [hslash]
        rfl
      · exact toLower_of_isSpace (hd hslash)
    rw [hsame] at hlower
    subst hlower
    simp only [isSolid, Bool.and_eq_true, bne_iff_ne, ne_eq, Bool.not_eq_true'] at hc
    rw [hd hc.1] at hc
    exact Bool.noConfusion hc.2
  · exact isSolid_extraCases _ hextra

/-- The ranges of `isAlphanum`. -/
theorem range_of_isAlphanum {d : Char} (h : d.isAlphanum = true) :
    ((65 ≤ d.toNat ∧ d.toNat ≤ 90) ∨ (97 ≤ d.toNat ∧ d.toNat ≤ 122)) ∨
      (48 ≤ d.toNat ∧ d.toNat ≤ 57) := by
  have hranges : (decide ('A'.val ≤ d.val ∧ d.val ≤ 'Z'.val) ||
      (decide ('a'.val ≤ d.val) && decide (d.val ≤ 'z'.val)) ||
      (decide ('0'.val ≤ d.val) && decide (d.val ≤ '9'.val))) = true := h
  simp only [Bool.or_eq_true, decide_eq_true_eq, Bool.and_eq_true, UInt32.le_iff_toNat_le]
    at hranges
  exact hranges

/-- The characters of a host are solid. -/
theorem isSolid_of_isHostChar {d : Char} (h : isHostChar d = true) : isSolid d = true := by
  simp only [isHostChar, Bool.or_eq_true, beq_iff_eq, List.any_eq_true] at h
  rcases h with (halnum | rfl) | ⟨e, he, rfl⟩
  · have hrange := range_of_isAlphanum halnum
    have hslash : d ≠ '/' := by
      rintro rfl
      revert hrange
      decide
    have hspace : isSpace d = false := by
      by_contra hspace
      simp only [Bool.not_eq_false, isSpace, Bool.or_eq_true, Bool.and_eq_true, decide_eq_true_eq,
        beq_iff_eq] at hspace
      omega
    simp [isSolid, hslash, hspace]
  · decide
  · exact isSolid_extraCases e he

/-- A literal that starts with a solid character needs one. -/
theorem literal_needs {s : String} (h : s.toList.head?.any isSolid = true) :
    (literal s).Needs isSolid := by
  unfold literal
  cases hs : s.toList with
  | nil => simp [hs] at h
  | cons c cs =>
      have hc : isSolid c = true := by simpa [hs] using h
      exact .inl fun d hd => isSolid_of_sameLetter hc hd

/-- And so do alternatives that all start so. -/
theorem literals_need {ss : List String} (h : ∀ s ∈ ss, s.toList.head?.any isSolid = true) :
    (Regex.alts (ss.map literal)).Needs isSolid := by
  refine Regex.needs_alts fun r hr => ?_
  obtain ⟨s, hs, rfl⟩ := List.mem_map.mp hr
  exact literal_needs (h s hs)

/-- Every match of the pattern reads such a character. -/
theorem linkPattern_needs : linkPattern.Needs isSolid := by
  refine Regex.needs_alts fun r hr => ?_
  simp only [List.mem_cons, List.not_mem_nil, or_false] at hr
  rcases hr with rfl | rfl | rfl | rfl
  · exact .inl ⟨.inl (literal_needs (by decide)), literal_needs (by decide)⟩
  · exact .inl (literals_need (by decide))
  · exact .inr (.inl (literals_need (by decide)))
  · exact .inr (.inl (.inl (.inl (.inl fun _ hd => isSolid_of_isHostChar hd))))

/-- A text with a link is not made of slashes and white space alone. -/
theorem exists_isSolid_of_containsLink {u : Unicode} {s : String}
    (h : containsLink u (.str s) = .ok true) : ∃ c ∈ s.toList, isSolid c = true := by
  have hsearch : linkPattern.search (isWord u) s = true := by
    unfold containsLink at h
    split at h
    · exact Except.ok.inj h
    · cases h
  exact linkPattern_needs.exists_of_search hsearch

/-- The links and the texts of the repository's tests. -/
example :
    containsLink .ascii (.str "see HTTPS://example.com") = .ok true ∧
      containsLink .ascii (.str "t.me/x") = .ok true ∧
      containsLink .ascii (.str "a.b.shop!") = .ok true ∧
      containsLink .ascii (.str "hello world") = .ok false ∧
      containsLink .ascii (.str "x.community") = .ok false := by decide +kernel

end RubicaBot
