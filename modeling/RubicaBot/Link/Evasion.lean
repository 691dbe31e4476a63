import RubicaBot.Link
import RubicaBot.Regex.Matches

/-!
# RubicaBot.Link.Evasion

Whether text around a link can hide it from `contains_link`.

The URL and messenger branches of the pattern test no word boundary.  The
shortener and domain branches begin at one, and the domain branch needs another
behind the top-level domain, and `\b` counts `_` and the letters of every script
as word characters.  So a link with such a boundary at its edge is lost next to
one of them.

* `link_unevadable_iff` — a link is found in every text around it that may touch it
  with a word character on one side, on both or on none, iff one can be found that has
  no boundary at an edge that may be touched;
* `exampleLink_evaded` — a link behind a Persian word that is not found.
-/

namespace RubicaBot

open Py Regex

/-- A character that can occur in a host name. -/
def inHostName (c : Char) : Bool := c.isAlphanum || c == '-' || c == '.'

/-- Only characters that cannot occur in a host name. -/
def hostFree (s : String) : Bool := s.toList.all fun c => !inHostName c

/-- A character of the link at an edge that a word character may touch. -/
def edgeChar : Bool → Regex
  | true => .char fun _ => true
  | false => .empty

/-- A link without a word boundary at an edge that a word character may touch. -/
def shelteredPattern (left right : Bool) : Regex :=
  .alts
    [urlPattern, messengerPattern, .seq (edgeChar left) shortenerPattern,
    .seq (edgeChar left) (.seq domainPattern (edgeChar right))]

/-- A text contains a link if the pattern is found in it. -/
theorem containsLink_iff {u : Unicode} {s : String} :
    containsLink u (.str s) = .ok true ↔ linkPattern.search (isWord u) s = true := by
  unfold containsLink
  split
  · exact ⟨Except.ok.inj, congrArg _⟩
  · next hempty =>
      have hnil : s = "" := by simpa [PyVal.truthy] using hempty
      constructor
      · intro h
        cases h
      · intro h
        obtain ⟨c, hc, -⟩ := linkPattern_needs.exists_of_search h
        simp [hnil] at hc

/-! ## the characters around the link -/

/-- A character to put next to `c`: no boundary is between them, if it may be a word
character. -/
def guardChar (u : Unicode) (touched : Bool) (c : Option Char) : Char :=
  if touched && c.any (isWord u) then '_' else ' '

/-- The guard is a word character where the context is one. -/
theorem isWord_guardChar (u : Unicode) (touched : Bool) (c : Option Char) :
    isWord u (guardChar u touched c) = (touched && c.any (isWord u)) := by
  unfold guardChar
  split
  · next h => simp [isWord, h]
  · next h =>
      have hspace : u.isAlnum ' ' = false := u.isAlnum_ascii ' ' (by decide)
      rw [eq_false_of_ne_true h]
      simp [isWord, hspace]

/-- It belongs to no host. -/
theorem hostFree_guardChar (u : Unicode) (touched : Bool) (c : Option Char) :
    hostFree (String.singleton (guardChar u touched c)) = true := by
  unfold guardChar
  split <;> decide

/-- A character that is not put next to the link. -/
def isOwn (c : Char) : Bool := c != '_' && c != ' '

/-- And to no match. -/
theorem guardChar_notMem {u : Unicode} {touched : Bool} {c : Option Char} {v : List Char}
    (hv : ∀ d ∈ v, isOwn d = true) : guardChar u touched c ∉ v := by
  intro h
  have hown := hv _ h
  unfold guardChar at hown
  split at hown <;> cases hown

@[simp] theorem getLast?_cons_concat (c₀ c : Char) (p : List Char) :
    (c₀ :: (p ++ [c])).getLast? = some c := by
  rw [← List.cons_append, List.getLast?_concat]

/-- A part of the text that contains neither of the characters around the link
lies in the link. -/
theorem exists_of_framed {c₀ c₁ : Char} {t p v z : List Char}
    (h : c₀ :: (t ++ [c₁]) = p ++ v ++ z) (hv : v ≠ []) (h₀ : c₀ ∉ v) (h₁ : c₁ ∉ v) :
    ∃ p' z', p = c₀ :: p' ∧ z = z' ++ [c₁] ∧ t = p' ++ v ++ z' := by
  cases p with
  | nil =>
      obtain ⟨d, v, rfl⟩ := List.exists_cons_of_ne_nil hv
      obtain ⟨rfl, -⟩ := List.cons.inj h
      exact absurd List.mem_cons_self h₀
  | cons d p =>
      obtain ⟨rfl, htail⟩ := List.cons.inj h
      have ht : t ++ [c₁] = p ++ v ++ z := htail
      rcases List.eq_nil_or_concat z with rfl | ⟨z, d, rfl⟩
      · obtain ⟨v, d, rfl⟩ := (List.eq_nil_or_concat v).resolve_left hv
        rw [List.append_nil, List.concat_eq_append, ← List.append_assoc] at ht
        obtain ⟨-, hlast⟩ := List.append_inj' ht rfl
        obtain rfl := (List.cons.inj hlast).1
        simp at h₁
      · rw [List.concat_eq_append, ← List.append_assoc] at ht
        obtain ⟨ht, hlast⟩ := List.append_inj' ht rfl
        exact ⟨p, z, rfl, by rw [List.concat_eq_append, hlast], ht⟩

/-! ## the branches of the pattern -/

/-- What has no case matches itself alone. -/
theorem eq_of_sameLetter {c d : Char} (hc : c.toNat < 65) (h : sameLetter c d = true) : d = c := by
  simp only [sameLetter, Bool.or_eq_true, beq_iff_eq, decide_eq_true_eq] at h
  rcases h with hlower | hextra
  · unfold Char.toLower at hlower
    split at hlower
    · next hupper =>
        have hlow := UInt32.le_iff_toNat_le.mp hupper.1
        have hhigh := UInt32.le_iff_toNat_le.mp hupper.2
        have hshift : c.toNat = (d.toNat + 32) % 4294967296 := by
          rw [← hlower]
          rfl
        simp only [Char.reduceVal, UInt32.reduceToNat, Char.toNat_val] at hlow hhigh
        omega
    · exact hlower
  · have hletter : ∀ e ∈ extraCases, 65 ≤ e.1.toNat := by decide
    exact absurd (hletter _ hextra) (Nat.not_le.mpr hc)

/-- A literal looks at no context. -/
theorem literal_plain (l : String) : (literal l).Plain := by
  refine plain_seqs fun r hr => ?_
  obtain ⟨c, -, rfl⟩ := List.mem_map.mp hr
  trivial

/-- A literal text without them reads none of the characters around the link. -/
theorem literal_reads {l : String}
    (h : l.toList.all (fun c => !sameLetter c '_' && !sameLetter c ' ') = true) :
    (literal l).Reads isOwn := by
  refine reads_seqs fun r hr => ?_
  obtain ⟨c, hc, rfl⟩ := List.mem_map.mp hr
  intro d hd
  have hother := List.all_eq_true.mp h c hc
  simp only [isOwn, Bool.and_eq_true, bne_iff_ne]
  constructor <;> (rintro rfl; simp [hd] at hother)

/-- Nor do alternatives of literals. -/
theorem literals_plain (ls : List String) : (alts (ls.map literal)).Plain := by
  refine plain_alts fun r hr => ?_
  obtain ⟨l, -, rfl⟩ := List.mem_map.mp hr
  exact literal_plain l

/-- They read their own letters. -/
theorem literals_read {ls : List String}
    (h : ∀ l ∈ ls, l.toList.all (fun c => !sameLetter c '_' && !sameLetter c ' ') = true) :
    (alts (ls.map literal)).Reads isOwn := by
  refine reads_alts fun r hr => ?_
  obtain ⟨l, hl, rfl⟩ := List.mem_map.mp hr
  exact literal_reads (h l hl)

/-- A match of a literal text ends in its last character. -/
theorem literal_getLast? {u : Unicode} {l : String} {c : Char} (hlast : l.toList.getLast? = some c)
    {b a : Option Char} {w : List Char} (h : Matches (isWord u) (literal l) b w a) :
    ∃ d, w.getLast? = some d ∧ sameLetter c d = true := by
  unfold literal at h
  generalize l.toList = cs at h hlast
  induction cs generalizing b w with
  | nil => cases hlast
  | cons e cs ih =>
      obtain ⟨v, z, rfl, hv, hz⟩ := matches_seq_iff.mp h
      obtain ⟨d, hd, rfl⟩ := matches_char_iff.mp hv
      cases cs with
      | nil =>
          obtain rfl := Option.some.inj hlast
          cases hz
          exact ⟨d, rfl, hd⟩
      | cons e' cs =>
          obtain ⟨d', hd', hsame⟩ := ih hz (by rwa [List.getLast?_cons_cons] at hlast)
          exact ⟨d', by rw [List.getLast?_append, hd']; rfl, hsame⟩

/-- One character that is no space will do. -/
theorem exists_of_plus_nonSpace {u : Unicode} {b a : Option Char} {w : List Char}
    (h : Matches (isWord u) (.plus nonSpace) b w a) :
    ∃ e rest, w = e :: rest ∧ isSpace e = false := by
  obtain ⟨v, z, rfl, hv, -⟩ := matches_seq_iff.mp h
  obtain ⟨e, he, rfl⟩ := matches_char_iff.mp hv
  exact ⟨e, z, rfl, by simpa using he⟩

/-- It is enough. -/
theorem plus_nonSpace {u : Unicode} {e : Char} (he : isSpace e = false) (b a : Option Char) :
    Matches (isWord u) (.plus nonSpace) b [e] a := .seq (.char (by simpa using he)) .done

/-- The form of a match that tests no boundary: a part that ends in no word
character, then a character other than white space, then anything. -/
def Opens (u : Unicode) (r : Regex) : Prop :=
  ∀ b w a, Matches (isWord u) r b w a →
    ∃ v e rest, w = v ++ e :: rest ∧ v ≠ [] ∧ (∀ c ∈ v, isOwn c = true) ∧
      v.getLast?.any (isWord u) = false ∧ isSpace e = false ∧
        ∀ b' a', Matches (isWord u) r b' (v ++ [e]) a'

/-- A slash is no word character. -/
theorem isWord_slash (u : Unicode) : isWord u '/' = false := by
  have hslash : u.isAlnum '/' = false := u.isAlnum_ascii '/' (by decide)
  simp [isWord, hslash]

/-- Nor is a dot. -/
theorem isWord_dot (u : Unicode) : isWord u '.' = false := by
  have hdot : u.isAlnum '.' = false := u.isAlnum_ascii '.' (by decide)
  simp [isWord, hdot]

/-- `https?://|www\.`. -/
def urlHead : Regex :=
  .alt (.seqs [literal "http", .opt (literal "s"), literal "://"]) (literal "www.")

/-- The head of a URL reads its own characters. -/
theorem urlHead_reads : urlHead.Reads isOwn :=
  ⟨⟨literal_reads (by decide), ⟨literal_reads (by decide), trivial⟩, literal_reads (by decide),
    trivial⟩, literal_reads (by decide)⟩

/-- And looks at no context. -/
theorem urlHead_plain : urlHead.Plain :=
  ⟨⟨literal_plain _, ⟨literal_plain _, trivial⟩, literal_plain _, trivial⟩, literal_plain _⟩

/-- It has a solid character. -/
theorem urlHead_needs : urlHead.Needs isSolid :=
  ⟨.inl (literal_needs (by decide)), literal_needs (by decide)⟩

/-- And ends with one that is no word character. -/
theorem urlHead_getLast? {u : Unicode} {b a : Option Char} {w : List Char}
    (h : Matches (isWord u) urlHead b w a) : w.getLast?.any (isWord u) = false := by
  rcases matches_alt_iff.mp h with h | h
  · obtain ⟨v, z, rfl, -, h⟩ := matches_seq_iff.mp h
    obtain ⟨v', z, rfl, -, h⟩ := matches_seq_iff.mp h
    obtain ⟨v'', z, rfl, h, hend⟩ := matches_seq_iff.mp h
    cases hend
    obtain ⟨d, hd, hsame⟩ := literal_getLast? (c := '/') rfl h
    simp [List.getLast?_append, hd, eq_of_sameLetter (by decide) hsame, isWord_slash]
  · obtain ⟨d, hd, hsame⟩ := literal_getLast? (c := '.') rfl h
    simp [hd, eq_of_sameLetter (by decide) hsame, isWord_dot]

/-- A URL has that form: its head, and then any one character. -/
theorem urlPattern_opens (u : Unicode) : Opens u urlPattern := by
  intro b w a h
  obtain ⟨v, z, rfl, hv, hz⟩ := matches_seq_iff.mp h
  obtain ⟨e, rest, rfl, he⟩ := exists_of_plus_nonSpace hz
  exact ⟨v, e, rest, rfl, hv.ne_nil urlHead_needs, hv.reads urlHead_reads, urlHead_getLast? hv, he,
    fun b' a' => .seq (hv.of_plain urlHead_plain _ _) (plus_nonSpace he _ _)⟩

/-- And so has a messenger link. -/
theorem messengerPattern_opens (u : Unicode) : Opens u messengerPattern := by
  intro b w a h
  obtain ⟨v, z, rfl, hv, hz⟩ := matches_seq_iff.mp h
  obtain ⟨v', z, rfl, hslash, hz⟩ := matches_seq_iff.mp hz
  obtain ⟨z, z', rfl, hz, hend⟩ := matches_seq_iff.mp hz
  cases hend
  obtain ⟨e, rest, rfl, he⟩ := exists_of_plus_nonSpace hz
  have hown : ∀ c ∈ v ++ v', isOwn c = true :=
    List.forall_mem_append.mpr
      ⟨hv.reads (literals_read (by decide)), hslash.reads (literal_reads (by decide))⟩
  have hne : v' ≠ [] := hslash.ne_nil (p := fun _ => true) (.inl fun _ _ => rfl)
  obtain ⟨d, hd, hsame⟩ := literal_getLast? (c := '/') rfl hslash
  refine ⟨v ++ v', e, rest, by simp, by simp [hne], hown, ?_, he, fun b' a' => ?_⟩
  · simp [List.getLast?_append, hd, eq_of_sameLetter (by decide) hsame, isWord_slash]
  · rw [List.append_assoc]
    exact .seq (hv.of_plain (literals_plain _) _ _)
      (.seq (hslash.of_plain (literal_plain _) _ _)
        (.seq (w := []) (plus_nonSpace he _ _) .empty))

/-- The form of a match of the shortener branch: up to the slash, with a
boundary before it; what follows does not matter. -/
theorem shortenerPattern_split {u : Unicode} {b a : Option Char} {w : List Char}
    (h : Matches (isWord u) shortenerPattern b w a) :
    ∃ v rest, w = v ++ rest ∧ v ≠ [] ∧ (∀ c ∈ v, isOwn c = true) ∧
      b.any (isWord u) ≠ v.head?.any (isWord u) ∧
        ∀ a', Matches (isWord u) shortenerPattern b v a' := by
  obtain ⟨w₀, z, rfl, hw₀, hz⟩ := matches_seq_iff.mp h
  obtain ⟨rfl, hleft⟩ := matches_boundary_iff.mp hw₀
  obtain ⟨v, z, rfl, hv, hz⟩ := matches_seq_iff.mp hz
  obtain ⟨w₀, z, rfl, hw₀, hz⟩ := matches_seq_iff.mp hz
  obtain ⟨rfl, hmid⟩ := matches_boundary_iff.mp hw₀
  obtain ⟨v', rest, rfl, hslash, -⟩ := matches_seq_iff.mp hz
  have hvne : v ≠ [] := hv.ne_nil (literals_need (by decide))
  have hne : v' ≠ [] := hslash.ne_nil (p := fun _ => true) (.inl fun _ _ => rfl)
  have hown : ∀ c ∈ v ++ v', isOwn c = true :=
    List.forall_mem_append.mpr
      ⟨hv.reads (literals_read (by decide)), hslash.reads (literal_reads (by decide))⟩
  obtain ⟨c, v, rfl⟩ := List.exists_cons_of_ne_nil hvne
  obtain ⟨d, v', rfl⟩ := List.exists_cons_of_ne_nil hne
  refine ⟨c :: v ++ d :: v', rest, by simp, by simp, hown, by simpa using hleft, fun a' => ?_⟩
  refine .seq (v := []) (.boundary (by simpa using hleft)) ?_
  refine .seq (hv.of_plain (literals_plain _) _ _) ?_
  refine .seq (v := []) (.boundary (by simpa using hmid)) ?_
  have hrest : Matches (isWord u) (.seqs [literal "/", .star nonSpace])
      ((c :: v).getLast?.or (none.or b)) (d :: v' ++ ([] ++ [])) a' :=
    .seq (hslash.of_plain (literal_plain _) _ _) (.seq .done .empty)
  simpa using hrest

/-- `(?:[a-z0-9-]+\.)+`. -/
def labels : Regex := .plus (.seq (.plus (.char isHostChar)) (literal "."))

/-- The characters of a host are its own. -/
theorem isOwn_of_isHostChar {c : Char} (h : isHostChar c = true) : isOwn c = true := by
  simp only [isOwn, Bool.and_eq_true, bne_iff_ne]
  constructor <;>
    · rintro rfl
      revert h
      decide

/-- A label reads its own characters. -/
theorem label_reads : (Regex.seq (.plus (.char isHostChar)) (literal ".")).Reads isOwn :=
  ⟨⟨fun _ => isOwn_of_isHostChar, fun _ => isOwn_of_isHostChar⟩, literal_reads (by decide)⟩

/-- Labels look at no context. -/
theorem labels_plain : labels.Plain :=
  ⟨⟨⟨trivial, trivial⟩, literal_plain _⟩, ⟨⟨trivial, trivial⟩, literal_plain _⟩⟩

/-- The form of a match of the domain branch: the host, with a boundary before
and behind it, then perhaps a path. -/
theorem domainPattern_split {u : Unicode} {b a : Option Char} {w : List Char}
    (h : Matches (isWord u) domainPattern b w a) :
    ∃ v rest, w = v ++ rest ∧ v ≠ [] ∧ (∀ c ∈ v, isOwn c = true) ∧
      b.any (isWord u) ≠ v.head?.any (isWord u) ∧
      v.getLast?.any (isWord u) ≠ (rest.head?.or a).any (isWord u) ∧
        Matches (isWord u) domainPattern b v (rest.head?.or a) := by
  obtain ⟨w₀, z, rfl, hw₀, hz⟩ := matches_seq_iff.mp h
  obtain ⟨rfl, hleft⟩ := matches_boundary_iff.mp hw₀
  obtain ⟨v, z, rfl, hv, hz⟩ := matches_seq_iff.mp hz
  obtain ⟨v', z, rfl, htld, hz⟩ := matches_seq_iff.mp hz
  obtain ⟨w₀, z, rfl, hw₀, hz⟩ := matches_seq_iff.mp hz
  obtain ⟨rfl, hright⟩ := matches_boundary_iff.mp hw₀
  have hvne : v ≠ [] := hv.ne_nil (p := isHostChar) (.inl (.inl (.inl fun _ h => h)))
  have hne : v' ≠ [] := htld.ne_nil (literals_need (by decide))
  have hown : ∀ c ∈ v ++ v', isOwn c = true :=
    List.forall_mem_append.mpr
      ⟨hv.reads ⟨label_reads, label_reads⟩, htld.reads (literals_read (by decide))⟩
  obtain ⟨c, v, rfl⟩ := List.exists_cons_of_ne_nil hvne
  obtain ⟨d, v', rfl⟩ := List.exists_cons_of_ne_nil hne
  have hlast : (d :: v').getLast? = some ((d :: v').getLast hne) :=
    List.getLast?_eq_some_getLast hne
  refine ⟨c :: v ++ d :: v', z, by simp, by simp, hown, by simpa using hleft, ?_, ?_⟩
  · rw [List.getLast?_append]
    simpa [hlast] using hright
  · refine .seq (v := []) (.boundary (by simpa using hleft)) ?_
    refine .seq (hv.of_plain labels_plain _ _) ?_
    have htail : Matches (isWord u) (.seqs [.boundary, .opt (.seq (literal "/") (.star nonSpace))])
        ((d :: v').getLast?.or ((c :: v).getLast?.or (none.or b))) [] (z.head?.or a) :=
      .seq (.boundary (by simpa [hlast] using hright))
        (.seq (v := []) (w := []) (.right .empty) .empty)
    have hhost := Matches.seq (htld.of_plain (literals_plain _) _ _) htail
    rw [List.append_nil] at hhost
    exact hhost

/-- Part of such a match is one in every context. -/
theorem Opens.exists_anywhere {u : Unicode} {r : Regex} (hr : Opens u r) {b a : Option Char}
    {w : List Char} (h : Matches (isWord u) r b w a) :
    ∃ v rest, w = v ++ rest ∧ ∀ b' a', Matches (isWord u) r b' v a' := by
  obtain ⟨v, e, rest, rfl, -, -, -, -, hany⟩ := hr _ _ _ h
  exact ⟨v ++ [e], rest, by simp, hany⟩

/-! ## any text around the link -/

/-- The branches of a pattern. -/
theorem matches_linkPattern_iff {u : Unicode} {b a : Option Char} {w : List Char} :
    Matches (isWord u) linkPattern b w a ↔
      Matches (isWord u) urlPattern b w a ∨ Matches (isWord u) messengerPattern b w a ∨
        Matches (isWord u) shortenerPattern b w a ∨ Matches (isWord u) domainPattern b w a := by
  simp [linkPattern, matches_alts_iff]

/-- The four kinds of link. -/
theorem matches_shelteredPattern_iff {u : Unicode} {left right : Bool} {b a : Option Char}
    {w : List Char} :
    Matches (isWord u) (shelteredPattern left right) b w a ↔
      Matches (isWord u) urlPattern b w a ∨ Matches (isWord u) messengerPattern b w a ∨
        Matches (isWord u) (.seq (edgeChar left) shortenerPattern) b w a ∨
          Matches (isWord u) (.seq (edgeChar left) (.seq domainPattern (edgeChar right)))
            b w a := by
  simp [shelteredPattern, matches_alts_iff]

section Sheltered

variable {u : Unicode} {left right touched : Bool} {b a : Option Char} {e p q s v : List Char}

/-- Text in front of the link changes no boundary behind its edge. -/
theorem any_before_edge (he : Matches (isWord u) (edgeChar touched) b e a)
    (hs : s.getLast?.any (isWord u) = true → touched = true) :
    (s ++ p ++ e).getLast?.any (isWord u) = (e.getLast?.or p.getLast?).any (isWord u) := by
  cases touched with
  | true =>
      obtain ⟨c, -, rfl⟩ := matches_char_iff.mp he
      simp
  | false =>
      cases he
      have hs : s.getLast?.any (isWord u) = false :=
        eq_false_of_ne_true fun h => Bool.false_ne_true (hs h)
      rcases List.eq_nil_or_concat p with rfl | ⟨p, c, rfl⟩
      · simpa using hs
      · simp [List.concat_eq_append]

/-- Text behind the link changes no boundary before its edge. -/
theorem any_behind_edge (he : Matches (isWord u) (edgeChar touched) b e a)
    (hv : v.head?.any (isWord u) = true → touched = true) :
    (e ++ (q ++ v)).head?.any (isWord u) = (e.head?.or q.head?).any (isWord u) := by
  cases touched with
  | true =>
      obtain ⟨c, -, rfl⟩ := matches_char_iff.mp he
      rfl
  | false =>
      cases he
      have hv : v.head?.any (isWord u) = false :=
        eq_false_of_ne_true fun h => Bool.false_ne_true (hv h)
      cases q with
      | nil => simpa using hv
      | cons c q => rfl

/-- A sheltered link is found in every text that touches it no more than it may. -/
theorem search_of_sheltered {s t v : String}
    (h : (shelteredPattern left right).search (isWord u) t = true)
    (hs : s.toList.getLast?.any (isWord u) = true → left = true)
    (hv : v.toList.head?.any (isWord u) = true → right = true) :
    linkPattern.search (isWord u) (s ++ t ++ v) = true := by
  obtain ⟨p, w, q, ht, hmatch⟩ := search_iff.mp h
  have htext : (s ++ t ++ v).toList = s.toList ++ p ++ w ++ (q ++ v.toList) := by simp [ht]
  rcases matches_shelteredPattern_iff.mp hmatch with hurl | hmessenger | hshortener | hdomain
  · obtain ⟨x, rest, rfl, hany⟩ := (urlPattern_opens u).exists_anywhere hurl
    refine search_iff.mpr ⟨s.toList ++ p, x, rest ++ (q ++ v.toList), ?_, ?_⟩
    · simp [htext]
    · exact matches_linkPattern_iff.mpr (.inl (hany _ _))
  · obtain ⟨x, rest, rfl, hany⟩ := (messengerPattern_opens u).exists_anywhere hmessenger
    refine search_iff.mpr ⟨s.toList ++ p, x, rest ++ (q ++ v.toList), ?_, ?_⟩
    · simp [htext]
    · exact matches_linkPattern_iff.mpr (.inr (.inl (hany _ _)))
  · obtain ⟨e, z, rfl, he, hz⟩ := matches_seq_iff.mp hshortener
    obtain ⟨x, rest, rfl, -, -, -, hany⟩ := shortenerPattern_split hz
    refine search_iff.mpr ⟨s.toList ++ p ++ e, x, rest ++ (q ++ v.toList), ?_, ?_⟩
    · simp [htext]
    · refine matches_linkPattern_iff.mpr (.inr (.inr (.inl ?_)))
      exact (hany _).in_context (any_before_edge he hs) rfl
  · obtain ⟨e, z, rfl, he, hz⟩ := matches_seq_iff.mp hdomain
    obtain ⟨x, e', rfl, hx, he'⟩ := matches_seq_iff.mp hz
    refine search_iff.mpr ⟨s.toList ++ p ++ e, x, e' ++ (q ++ v.toList), ?_, ?_⟩
    · simp [htext]
    · refine matches_linkPattern_iff.mpr (.inr (.inr (.inr ?_)))
      exact hx.in_context (any_before_edge he hs) (any_behind_edge he' hv)

end Sheltered

section Framed

variable {u : Unicode} {left right : Bool} {t p' v z : List Char}

/-- A match that tests no boundary, between the characters put around a link,
lies in the link. -/
theorem Opens.search_framed {r : Regex} (hr : Opens u r) {p w q : List Char}
    (ht : guardChar u left t.head? :: (t ++ [guardChar u right t.getLast?]) = p ++ w ++ q)
    (h : Matches (isWord u) r p.getLast? w q.head?) :
    ∃ p' w' q', t = p' ++ w' ++ q' ∧ Matches (isWord u) r p'.getLast? w' q'.head? := by
  obtain ⟨v, e, rest, rfl, hne, hown, hlast, he, hany⟩ := hr _ _ _ h
  obtain ⟨p', z, rfl, hz, hsplit⟩ := exists_of_framed (z := e :: (rest ++ q))
    (by simpa using ht) hne (guardChar_notMem hown) (guardChar_notMem hown)
  cases z with
  | nil =>
      -- the link ends where a word cannot, so a space was put behind it
      have hguard : e = guardChar u right t.getLast? := (List.cons.inj hz).1
      have hend : t.getLast?.any (isWord u) = false := by
        cases hv : v.getLast? with
        | none => exact absurd (List.getLast?_eq_none_iff.mp hv) hne
        | some d => simpa [hsplit, List.getLast?_append, hv] using hlast
      rw [hguard, guardChar, hend, Bool.and_false] at he
      cases he
  | cons e' z =>
      obtain ⟨rfl, -⟩ := List.cons.inj hz
      exact ⟨p', v ++ [e], z, by simp [hsplit], hany _ _⟩

/-- A boundary before a part of the link, with a character put in front of the link
that is no boundary there, has the character at the edge before it. -/
theorem exists_edge_before (hne : v ≠ []) (hsplit : t = p' ++ v ++ z)
    (hedge : (guardChar u left t.head? :: p').getLast?.any (isWord u) ≠ v.head?.any (isWord u)) :
    ∃ p'' e, p' = p'' ++ e ∧ (∀ b a, Matches (isWord u) (edgeChar left) b e a) ∧
      (e.getLast?.or p''.getLast?).any (isWord u) =
        (guardChar u left t.head? :: p').getLast?.any (isWord u) := by
  rcases List.eq_nil_or_concat p' with rfl | ⟨p'', c, rfl⟩
  · cases left with
    | true =>
        obtain ⟨d, v, rfl⟩ := List.exists_cons_of_ne_nil hne
        simp [isWord_guardChar, hsplit] at hedge
    | false => exact ⟨[], [], rfl, fun _ _ => .empty, by simp [isWord_guardChar]⟩
  · rw [List.concat_eq_append, getLast?_cons_concat]
    cases left with
    | true => exact ⟨p'', [c], rfl, fun _ _ => .char rfl, rfl⟩
    | false => exact ⟨p'' ++ [c], [], by simp, fun _ _ => .empty, by simp⟩

/-- The same behind it. -/
theorem exists_edge_behind (hne : v ≠ []) (hsplit : t = p' ++ v ++ z)
    (hedge : v.getLast?.any (isWord u) ≠
      (z ++ [guardChar u right t.getLast?]).head?.any (isWord u)) :
    ∃ e z', z = e ++ z' ∧ (∀ b a, Matches (isWord u) (edgeChar right) b e a) ∧
      (e.head?.or z'.head?).any (isWord u) =
        (z ++ [guardChar u right t.getLast?]).head?.any (isWord u) := by
  cases z with
  | nil =>
      cases right with
      | true =>
          obtain ⟨v, d, rfl⟩ := (List.eq_nil_or_concat v).resolve_left hne
          simp [isWord_guardChar, hsplit, List.concat_eq_append] at hedge
      | false => exact ⟨[], [], rfl, fun _ _ => .empty, by simp [isWord_guardChar]⟩
  | cons c z =>
      cases right with
      | true => exact ⟨[c], z, rfl, fun _ _ => .char rfl, rfl⟩
      | false => exact ⟨[], c :: z, rfl, fun _ _ => .empty, rfl⟩

/-- A link that is found between these two characters is sheltered. -/
theorem sheltered_of_framed {t : String}
    (h : linkPattern.search (isWord u) (String.singleton (guardChar u left t.toList.head?) ++ t ++
      String.singleton (guardChar u right t.toList.getLast?)) = true) :
    (shelteredPattern left right).search (isWord u) t = true := by
  obtain ⟨p, w, q, htext, hmatch⟩ := search_iff.mp h
  have ht : guardChar u left t.toList.head? ::
      (t.toList ++ [guardChar u right t.toList.getLast?]) = p ++ w ++ q := by simpa using htext
  rcases matches_linkPattern_iff.mp hmatch with hurl | hmessenger | hshortener | hdomain
  · obtain ⟨p', w', q', hsplit, hin⟩ := (urlPattern_opens u).search_framed ht hurl
    exact search_iff.mpr ⟨p', w', q', hsplit, matches_shelteredPattern_iff.mpr (.inl hin)⟩
  · obtain ⟨p', w', q', hsplit, hin⟩ := (messengerPattern_opens u).search_framed ht hmessenger
    exact search_iff.mpr ⟨p', w', q', hsplit, matches_shelteredPattern_iff.mpr (.inr (.inl hin))⟩
  · obtain ⟨v, rest, rfl, hne, hown, hleft, hany⟩ := shortenerPattern_split hshortener
    obtain ⟨p', z, rfl, hz, hsplit⟩ := exists_of_framed (z := rest ++ q) (by simpa using ht) hne
      (guardChar_notMem hown) (guardChar_notMem hown)
    obtain ⟨p'', e, rfl, he, hbefore⟩ := exists_edge_before hne hsplit hleft
    refine search_iff.mpr ⟨p'', e ++ v, z, by simp [hsplit], ?_⟩
    refine matches_shelteredPattern_iff.mpr (.inr (.inr (.inl (.seq (he _ _) ?_))))
    exact (hany _).in_context hbefore rfl
  · obtain ⟨v, rest, rfl, hne, hown, hleft, hright, hcore⟩ := domainPattern_split hdomain
    obtain ⟨p', z, rfl, hz, hsplit⟩ := exists_of_framed (z := rest ++ q) (by simpa using ht) hne
      (guardChar_notMem hown) (guardChar_notMem hown)
    rw [← List.head?_append, hz] at hright hcore
    obtain ⟨p'', e, rfl, he, hbefore⟩ := exists_edge_before hne hsplit hleft
    obtain ⟨e', z', rfl, he', hbehind⟩ := exists_edge_behind hne hsplit hright
    refine search_iff.mpr ⟨p'', e ++ (v ++ e'), z', by simp [hsplit], ?_⟩
    refine matches_shelteredPattern_iff.mpr (.inr (.inr (.inr (.seq (he _ _) ?_))))
    exact .seq (hcore.in_context hbefore hbehind) (he' _ _)

end Framed

/-- **What cannot be hidden.**  Put any text of characters that cannot occur in a host
name around `t`, where only on the sides that `left` and `right` allow a word character
may touch it.  A link is always found if and only if there is one in `t` that has no
word boundary at an edge that may be touched. -/
theorem link_unevadable_iff (u : Unicode) (t : String) (left right : Bool) :
    (∀ s v, hostFree s = true → hostFree v = true →
      (s.toList.getLast?.any (isWord u) = true → left = true) →
      (v.toList.head?.any (isWord u) = true → right = true) →
      containsLink u (.str (s ++ t ++ v)) = .ok true) ↔
    (shelteredPattern left right).search (isWord u) t = true := by
  constructor
  · intro h
    refine sheltered_of_framed (containsLink_iff.mp
      (h _ _ (hostFree_guardChar u left _) (hostFree_guardChar u right _) ?_ ?_))
    · intro hword
      rw [String.toList_singleton] at hword
      exact ((Bool.and_eq_true _ _).mp ((isWord_guardChar u left _).symm.trans hword)).1
    · intro hword
      rw [String.toList_singleton] at hword
      exact ((Bool.and_eq_true _ _).mp ((isWord_guardChar u right _).symm.trans hword)).1
  · intro h s v _ _ hs hv
    exact containsLink_iff.mpr (search_of_sheltered h hs hv)

/-- With anything around it, a link is found that begins behind a hyphen and has a path,
and one that is a URL, but no domain alone. -/
example :
    (shelteredPattern true true).search (isWord .ascii) "my-site.com/path" = true ∧
      (shelteredPattern true true).search (isWord .ascii) "https://example.com" = true ∧
      (shelteredPattern true false).search (isWord .ascii) "example.com" = false ∧
      (shelteredPattern false true).search (isWord .ascii) "example.com" = false ∧
      (shelteredPattern false false).search (isWord .ascii) "example.com" = true := by
  decide +kernel

/-- ASCII and the letters of the Arabic script. -/
def arabic : Unicode :=
  { Unicode.ascii with
    isAlnum c := c.isAlphanum || (0x620 ≤ c.toNat && c.toNat ≤ 0x64a)
    isAlnum_ascii c hc := by
      have hlow : ¬ 0x620 ≤ c.toNat := by omega
      simp [hlow] }

/-- Directly behind a Persian word the whole link `example.com` is not found. -/
theorem exampleLink_evaded :
    ("example.com".toList.all fun c => decide (c.toNat < 128)) = true ∧
      ((linkPattern.ends (isWord arabic) ⟨none, "example.com".toList⟩).any
        fun y => y.after.isEmpty) = true ∧
      containsLink arabic (.str "example.com") = .ok true ∧
      hostFree "سلام" = true ∧ hostFree "" = true ∧
      containsLink arabic (.str ("سلام" ++ "example.com" ++ "")) = .ok false := by
  decide +kernel

end RubicaBot
