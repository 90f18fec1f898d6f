import ProtoDocs.Proofs.Grammar.Declarations

/-!
# Which item is read

Items are tried in a fixed order, and the first that fits is taken.  Most begin with a keyword of
their own; a text with another word in front is refused by them at once.  Groups, fields and enum
values come after these, so that they are tried only where no such keyword stands in front.

* `Place.keywords`     the keywords that items of a place begin with, in order;
* `itemLedBy k`        the item that begins with the keyword `k`;
* `othersAt p`         the items of a place that are tried after those;
* `itemAt_statement`, `itemAt_block`   a declaration that is admitted at a place is read there;
* `itemAt_semicolon`, `itemAt_stop`    a semicolon is no element, and a brace ends the items.
-/

namespace ProtoDocs

open Lexeme (isIdentChar)
open Reader

/-- the keywords that items of the place begin with, in the order they are tried -/
def Place.keywords : Place → List Keyword
  | .file =>
    [.language, .edition, .package, .importing, .option, .message, .enum, .service, .extend]
  | .message => [.option, .message, .enum, .oneof, .map, .extend, .reserved, .extensions]
  | .enum => [.option, .reserved]
  | .service => [.option, .rpc]
  | .method => [.option]
  | .oneof => [.option]
  | .extend => []

def Statement.keyword? : Statement → Option Keyword
  | .language _ => some .language
  | .edition _ => some .edition
  | .package _ => some .package
  | .importing _ _ => some .importing
  | .setting _ => some .option
  | .field _ => none
  | .mapField _ => some .map
  | .enumValue _ => none
  | .reserved _ => some .reserved
  | .extensions _ => some .extensions

/-- the keyword that blocks of this kind begin with; a label may come before that of a group -/
def Heading.keyword? : Heading → Option Keyword
  | .message _ => some .message
  | .enum _ => some .enum
  | .service _ => some .service
  | .method _ _ _ => some .rpc
  | .oneof _ => some .oneof
  | .group _ _ _ _ => none
  | .extend _ => some .extend

theorem Keyword.mem_all (k : Keyword) : k ∈ Keyword.all := by cases k <;> decide

theorem Keyword.find?_word (k : Keyword) : Keyword.all.find? (·.word == k.word) = some k := by
  cases k <;> decide

theorem Keyword.word_injective : Function.Injective Keyword.word := by
  intro k k' h
  have hk := k.find?_word
  rw [h, k'.find?_word] at hk
  exact (Option.some.inj hk).symm

theorem Label.word_ne_keyword (l : Label) (k : Keyword) : l.word ≠ k.word := by
  have hnone : ∀ k ∈ Keyword.all, l.word ≠ k.word := by cases l <;> decide
  exact hnone k k.mem_all

namespace Reader

def itemLedBy : Keyword → ItemReader
  | .language => ofStatement language
  | .edition => ofStatement edition
  | .package => ofStatement package
  | .importing => ofStatement importing
  | .option => ofStatement setting
  | .message => ofBlock (message nestedBody)
  | .enum => ofBlock enum
  | .service => ofBlock service
  | .rpc => ofBlock method
  | .returns => fail
  | .oneof => ofBlock (oneof nestedBody)
  | .map => ofStatement mapField
  | .reserved => ofStatement reserved
  | .extensions => ofStatement extensions
  | .extend => ofBlock (extend nestedBody)
  | .group => fail

theorem itemLedBy_statement {s : Statement} {k : Keyword} (hk : s.keyword? = some k) :
    itemLedBy k = ofStatement (statementLike s) := by
  cases s <;> cases hk <;> rfl

theorem itemLedBy_block {h : Heading} {k : Keyword} (hk : h.keyword? = some k) :
    itemLedBy k = ofBlock (blockLike h) := by
  cases h <;> cases hk <;> rfl

def othersAt : Place → List ItemReader
  | .message | .oneof | .extend =>
    [ofBlock (group nestedBody), ofStatement field, emptyStatement]
  | .enum => [ofStatement enumValue, emptyStatement]
  | .file | .service | .method => [emptyStatement]

theorem itemAt_eq (p : Place) :
    itemAt p = oneOf (p.keywords.map itemLedBy ++ othersAt p) := by
  cases p <;> rfl

theorem itemLedBy_refuses {k : Keyword} {t : Text} (h : firstWord t ≠ k.word) :
    (itemLedBy k t).result = none := by
  have hk := keyword_refuses h
  cases k <;>
    simp only [itemLedBy, ofStatement, ofBlock, language, edition, package, importing, setting,
      message, enum, service, method, oneof, mapField, reserved, extensions, extend, fail,
      result_named, result_bind, hk, Option.bind_none]

section
variable {α : Type} {t : Text} {x : α × Text} {p : Reader α} {ps : List (Reader α)}

theorem oneOf_of_some (h : (p t).result = some x) : (oneOf (p :: ps) t).result = some x :=
  orElse_eq_some.2 (.inl h)

theorem oneOf_of_none (h : (p t).result = none) :
    (oneOf (p :: ps) t).result = (oneOf ps t).result := by
  show (orElse p (oneOf ps) t).result = _
  rw [result_orElse, h, Option.none_or]

end

section
variable {t : Text} {x : Option Element × Text} {ps : List ItemReader}

/-- Behind a keyword, the item that begins with it is read. -/
theorem oneOf_keyword {k : Keyword} {ks : List Keyword} (hk : k ∈ ks) (h : firstWord t = k.word)
    (hx : (itemLedBy k t).result = some x) :
    (oneOf (ks.map itemLedBy ++ ps) t).result = some x := by
  induction ks with
  | nil => simp at hk
  | cons k' ks ih =>
    by_cases heq : k = k'
    · subst heq
      exact oneOf_of_some hx
    · have hrefuses : (itemLedBy k' t).result = none :=
        itemLedBy_refuses fun hk' => heq (Keyword.word_injective (h.symm.trans hk'))
      exact (oneOf_of_none hrefuses).trans (ih ((List.mem_cons.1 hk).resolve_left heq))

/-- Where no item that begins with a keyword is read, the others are tried. -/
theorem oneOf_refused {ks : List Keyword} (h : ∀ k ∈ ks, (itemLedBy k t).result = none) :
    (oneOf (ks.map itemLedBy ++ ps) t).result = (oneOf ps t).result := by
  induction ks with
  | nil => rfl
  | cons k ks ih =>
    rw [List.forall_mem_cons] at h
    exact (oneOf_of_none h.1).trans (ih h.2)

/-- Behind another word, the items without keywords are tried. -/
theorem oneOf_noKeyword {ks : List Keyword} (h : ∀ k ∈ ks, firstWord t ≠ k.word) :
    (oneOf (ks.map itemLedBy ++ ps) t).result = (oneOf ps t).result :=
  oneOf_refused fun k hk => itemLedBy_refuses (h k hk)

end
end Reader

/-! ## the word in front of a declaration -/

section
variable {rest t : Text}

theorem Begins.firstWord_eq_keyword {k : Keyword} {us : List Text}
    (h : Begins rest (k.word :: us) t) : firstWord t = k.word :=
  (h.firstWord_eq k.isIdent_word.ne_nil).trans k.isIdent_word.firstWord_eq

theorem Statement.Written.firstWord_eq {s : Statement} {k : Keyword} (h : s.Written t rest)
    (hwf : s.WellFormed) (hk : s.keyword? = some k) : firstWord t = k.word := by
  cases h with
  | tokens hs ht =>
    cases hs <;> cases hk <;> exact Begins.firstWord_eq_keyword ht
  | @ranges word r gap b hs hgap hclear hb ht =>
    have hword (hr : IsRanges r) (hw : word = k.word) : firstWord t = k.word := by
      subst hw ht
      have hclear' := hclear.append_ranges hr.ne_nil (b ++ ';' :: rest)
      exact (firstWord_append k.isIdent_word.ne_nil hclear').trans k.isIdent_word.firstWord_eq
    rcases Statement.rangeWord?_eq_some hs with ⟨rfl, hw⟩ | ⟨rfl, hw⟩
    · cases hk
      exact hword hwf hw
    · cases hk
      exact hword hwf hw

theorem Statement.Written.tokens_of_noKeyword {s : Statement} (h : s.Written t rest)
    (hk : s.keyword? = none) : ∃ us, s.Tokens us ∧ Begins rest us t := by
  cases h with
  | tokens hus ht => exact ⟨_, hus, ht⟩
  | ranges hr _ _ _ _ => cases s <;> simp [Statement.keyword?, Statement.rangeWord?] at hk hr

theorem Heading.Tokens.firstWord_eq {h : Heading} {k : Keyword} {us vs : List Text}
    (hs : h.Tokens us) (hk : h.keyword? = some k) (ht : Begins rest (us ++ vs) t) :
    firstWord t = k.word := by
  cases hs <;> cases hk <;> exact Begins.firstWord_eq_keyword ht

/-- Behind a label or without one, a text that goes on with `u` begins with no keyword but perhaps
`u`. -/
theorem Begins.firstWord_ne {l : Option Label} {u : Text} {us : List Text} {k : Keyword}
    (h : Begins rest ((l.map Label.word).toList ++ u :: us) t) (hne : u ≠ [])
    (hu : firstWord u ≠ k.word) : firstWord t ≠ k.word := by
  cases l with
  | none => rwa [Begins.firstWord_eq h hne]
  | some l =>
    rw [Begins.firstWord_eq h l.isIdent_word.ne_nil, l.isIdent_word.firstWord_eq]
    exact l.word_ne_keyword k

theorem Begins.firm_of_label {l : Option Label} {u : Text} {us : List Text}
    (h : Begins rest ((l.map Label.word).toList ++ u :: us) t) (hu : Solid u) : Firm t := by
  cases l with
  | none => exact Begins.firm h hu
  | some l => exact Begins.firm h l.isIdent_word.solid

theorem firm_of_firstWord {t : Text} {k : Keyword} (h : firstWord t = k.word) : Firm t := by
  have hstart : t.starts isIdentChar = true := by
    cases hs : t.starts isIdentChar with
    | true => rfl
    | false =>
      rw [firstWord_of_not_starts hs] at h
      exact absurd h.symm k.isIdent_word.ne_nil
  have hsolid : Solid t := .of_starts hstart (by decide)
  simpa using hsolid.firm []

theorem Statement.Written.firm {s : Statement} (h : s.Written t rest) (hwf : s.WellFormed) :
    Firm t := by
  cases hk : s.keyword? with
  | some k => exact firm_of_firstWord (h.firstWord_eq hwf hk)
  | none =>
    obtain ⟨us, hus, ht⟩ := h.tokens_of_noKeyword hk
    cases hus with
    | field htype _ => exact ht.firm_of_label (htype.isTypeRef hwf.2.2.1).solid
    | enumValue _ => exact Begins.firm ht hwf.1.solid
    | _ => simp [Statement.keyword?] at hk

theorem Heading.Tokens.firm {h : Heading} {us vs : List Text} (hs : h.Tokens us)
    (ht : Begins rest (us ++ vs) t) : Firm t := by
  cases hk : h.keyword? with
  | some k => exact firm_of_firstWord (hs.firstWord_eq hk ht)
  | none =>
    cases hs with
    | group l options _ =>
      rw [List.append_assoc] at ht
      exact ht.firm_of_label (Keyword.isIdent_word _).solid
    | _ => simp [Heading.keyword?] at hk

/-! ## items -/

theorem ofStatement_of_some {p : Reader Statement} {s : Statement}
    (h : (p t).result = some (s, rest)) :
    (ofStatement p t).result = some (some (.statement [] s), rest) :=
  bind_eq_some.2 ⟨s, rest, h, rfl⟩

theorem ofBlock_of_some {p : Reader Element} {e : Element} (h : (p t).result = some (e, rest)) :
    (ofBlock p t).result = some (some e, rest) :=
  bind_eq_some.2 ⟨e, rest, h, rfl⟩

theorem ofStatement_of_none {p : Reader Statement} (h : (p t).result = none) :
    (ofStatement p t).result = none := by
  rw [ofStatement, result_bind, h]
  rfl

theorem ofBlock_of_none {p : Reader Element} (h : (p t).result = none) :
    (ofBlock p t).result = none := by
  rw [ofBlock, result_bind, h]
  rfl

theorem itemAt_keyword {p : Place} {k : Keyword} {x : Option Element × Text}
    (hk : k ∈ p.keywords) (h : firstWord t = k.word) (hx : (itemLedBy k t).result = some x) :
    (itemAt p t).result = some x := by
  rw [itemAt_eq]
  exact oneOf_keyword hk h hx

theorem itemAt_others {p : Place} (h : ∀ k ∈ p.keywords, firstWord t ≠ k.word) :
    (itemAt p t).result = (oneOf (othersAt p) t).result := by
  rw [itemAt_eq]
  exact oneOf_noKeyword h

theorem Place.admits_field {p : Place} {f : Field} (h : p.admits (.field f) = true) :
    othersAt p = [ofBlock (group nestedBody), ofStatement field, emptyStatement] ∧
      ∀ k ∈ p.keywords, k.word ∈ openingWords := by
  cases p with
  | message => exact ⟨rfl, by decide⟩
  | oneof => exact ⟨rfl, by decide⟩
  | extend => exact ⟨rfl, by decide⟩
  | _ => simp [Place.admits] at h

theorem Place.admits_group {p : Place} {name : Text} {n : Nat} {l : Option Label}
    {options : List MemberOption} (h : p.admitsBlock (.group name n l options) = true) :
    othersAt p = [ofBlock (group nestedBody), ofStatement field, emptyStatement] ∧
      Keyword.group ∉ p.keywords := by
  cases p with
  | message => exact ⟨rfl, by decide⟩
  | oneof => exact ⟨rfl, by decide⟩
  | extend => exact ⟨rfl, by decide⟩
  | _ => simp [Place.admitsBlock] at h

theorem Place.admits_keyword {p : Place} {s : Statement} {k : Keyword} (h : p.admits s = true)
    (hk : s.keyword? = some k) : k ∈ p.keywords := by
  cases s <;> cases hk <;> cases p <;> first | decide | simp [Place.admits] at h

theorem Place.admitsBlock_keyword {p : Place} {h : Heading} {k : Keyword}
    (hp : p.admitsBlock h = true) (hk : h.keyword? = some k) : k ∈ p.keywords := by
  cases h <;> cases hk <;> cases p <;> first | decide | simp [Place.admitsBlock] at hp

/-- Where a field is written, its type begins with no word that a group could begin with. -/
theorem group_refuses {l : Option Label} {u : Text} {us : List Text}
    (h : Begins rest ((l.map Label.word).toList ++ u :: us) t) (hu : Solid u)
    (hlabel : ∀ l : Label, firstWord u ≠ l.word) (hgroup : firstWord u ≠ Keyword.group.word) :
    (group nestedBody t).result = none := by
  obtain ⟨t₁, h₁, ha⟩ := h.optionalLabel hu.ne_nil hlabel
  have hnone : (next (keyword .group) t₁).result = none := by
    rw [result_next, keyword_refuses]
    rwa [(ha.skip hu).firstWord_eq hu.ne_nil]
  simp only [group, result_named, result_bind, h₁, hnone, Option.bind_some, Option.bind_none]

/-- A statement that is admitted is read. -/
theorem itemAt_statement {p : Place} {s : Statement} (hp : p.admits s = true)
    (hs : s.Written t rest) (hwf : s.WellFormed) :
    (itemAt p t).result = some (some (.statement [] s), rest) := by
  have hread := ofStatement_of_some (statementLike_written hs hwf)
  cases hk : s.keyword? with
  | some k =>
    exact itemAt_keyword (p.admits_keyword hp hk) (hs.firstWord_eq hwf hk)
      (itemLedBy_statement hk ▸ hread)
  | none =>
    obtain ⟨us, hus, ht⟩ := hs.tokens_of_noKeyword hk
    cases hus with
    | @field f type number htype hnumber =>
      have hsolid := (htype.isTypeRef hwf.2.2.1).solid
      have hword (k : Keyword) (hk : k.word ∈ openingWords) : firstWord type ≠ k.word :=
        fun h => htype.firstWord_notMem hwf.2.2.1 (h ▸ hk)
      obtain ⟨hothers, hkeywords⟩ := p.admits_field hp
      have hgroup := group_refuses ht hsolid (htype.firstWord_ne_label hwf.2.2.1)
        (hword .group (by decide))
      rw [itemAt_others fun k hk => ht.firstWord_ne hsolid.ne_nil (hword k (hkeywords k hk)),
        hothers, oneOf_of_none (ofBlock_of_none hgroup)]
      exact oneOf_of_some hread
    | @enumValue v number hnumber =>
      obtain ⟨hname, hoption, hreserved, _⟩ := hwf
      have hfirst : firstWord t = v.name :=
        (ht.firstWord_eq hname.ne_nil).trans hname.firstWord_eq
      obtain rfl : p = .enum := by
        cases p <;> first | rfl | simp [Place.admits] at hp
      rw [itemAt_others (by simp [Place.keywords, hfirst, hoption, hreserved])]
      exact oneOf_of_some hread
    | _ => simp [Statement.keyword?] at hk

/-- A block that is admitted is read. -/
theorem itemAt_block {p : Place} {h : Heading} {us vs : List Text} {es : List Element} {u : Text}
    (hp : p.admitsBlock h = true) (hs : h.Tokens us) (ht : Begins rest (us ++ vs) t)
    (hread : (blockLike h t).result = some (.block [] h es, u)) :
    (itemAt p t).result = some (some (.block [] h es), u) := by
  have hread' := ofBlock_of_some hread
  cases hk : h.keyword? with
  | some k =>
    exact itemAt_keyword (p.admitsBlock_keyword hp hk) (hs.firstWord_eq hk ht)
      (itemLedBy_block hk ▸ hread')
  | none =>
    cases hs with
    | @group name number n l options hnumber =>
      obtain ⟨hothers, hgroup⟩ := p.admits_group hp
      rw [List.append_assoc] at ht
      have hne (k : Keyword) (hk : k ∈ p.keywords) : firstWord t ≠ k.word := by
        refine Begins.firstWord_ne ht (Keyword.isIdent_word _).ne_nil fun hword => ?_
        rw [(Keyword.isIdent_word _).firstWord_eq] at hword
        exact hgroup (Keyword.word_injective hword ▸ hk)
      rw [itemAt_others hne, hothers]
      exact oneOf_of_some hread'
    | _ => simp [Heading.keyword?] at hk

/-- Where neither a name nor a dot stands, there is no item but perhaps a semicolon. -/
theorem itemAt_noName {p : Place} (hfirm : Firm t)
    (h : t.starts (fun c => isIdentChar c || c == '.') = false) :
    (itemAt p t).result = (oneOf [emptyStatement] t).result := by
  have hchar : t.starts isIdentChar = false := Text.not_starts_mono (fun c hc => by simp [hc]) h
  have hdot : t.starts (· == '.') = false := Text.not_starts_mono (fun c hc => by simp_all) h
  have hword : firstWord t = [] := firstWord_of_not_starts hchar
  have hident : Lexeme.ident t = none := Scan.seq_of_none (Scan.char_of_not_starts
    (Text.not_starts_mono (fun _ => isIdentChar_of_isIdentStart) hchar)) _
  have hlabel : (Reader.optional label t).result = some (none, t) :=
    optional_of_none (label_refuses fun l => by rw [hword]; exact l.isIdent_word.ne_nil.symm)
  have hskip : (skip t).2 = t := by rw [skip_of_firm hfirm]
  have hgroup : (ofBlock (group nestedBody) t).result = none := by
    have hkw : (keyword .group t).result = none :=
      keyword_refuses (by rw [hword]; exact (Keyword.isIdent_word _).ne_nil.symm)
    refine ofBlock_of_none ?_
    simp only [group, result_named, result_bind, hlabel, result_next, hskip, hkw,
      Option.bind_some, Option.bind_none]
  have hfield : (ofStatement field t).result = none := by
    have htype : Lexeme.typeRef t = none :=
      (Scan.seq_of_some (Scan.opt_char_of_not_starts hdot) _).trans (Scan.seq_of_none hident _)
    have hread : (typeRef t).result = none := by
      rw [typeRef, result_bind, result_token, htype]
      rfl
    refine ofStatement_of_none ?_
    simp only [field, result_named, result_bind, hlabel, result_next, hskip, hread,
      Option.bind_some, Option.bind_none]
  have henum : (ofStatement enumValue t).result = none := by
    have hread : (ident t).result = none := by
      rw [ident, result_token, hident]
      rfl
    refine ofStatement_of_none ?_
    simp only [enumValue, result_named, result_bind, hread, Option.bind_none]
  rw [itemAt_others fun k _ => by rw [hword]; exact k.isIdent_word.ne_nil.symm]
  cases p with
  | file | service | method => rfl
  | message | oneof | extend =>
    exact (oneOf_of_none hgroup).trans (oneOf_of_none hfield)
  | enum => exact oneOf_of_none henum

/-- A lone semicolon is no element. -/
theorem itemAt_semicolon (p : Place) (t : Text) :
    (itemAt p (';' :: t)).result = some (none, t) :=
  (itemAt_noName (t := ';' :: t) (Solid.firm (u := [';']) (by decide) t) rfl).trans rfl

/-- a text at which a row of elements has come to its end -/
def Stop (t : Text) : Prop := t = [] ∨ ∃ u, t = '}' :: u

theorem Stop.firm (h : Stop t) : Firm t := by
  rcases h with rfl | ⟨u, rfl⟩
  · exact ⟨rfl, rfl⟩
  · exact Solid.firm (u := ['}']) (by decide) u

theorem itemAt_stop (p : Place) (h : Stop t) : (itemAt p t).result = none := by
  rw [itemAt_noName h.firm (by rcases h with rfl | ⟨u, rfl⟩ <;> rfl)]
  rcases h with rfl | ⟨u, rfl⟩ <;> rfl

end
end ProtoDocs
