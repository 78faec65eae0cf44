import Lexicon.Proofs.Session.OneLine
import Lexicon.Proofs.Text.Numeral
import Lexicon.Report

namespace Lexicon.Report

section

variable {α : Type} {d : α} {xs ys front other : List α}

theorem append_cons_inj (hx : d ∉ xs) (hy : d ∉ ys) (h : xs ++ d :: front = ys ++ d :: other) :
    xs = ys ∧ front = other := by
  induction xs generalizing ys with
  | nil =>
    cases ys with
    | nil => exact ⟨rfl, (List.cons.inj h).2⟩
    | cons y ys =>
      obtain ⟨rfl, -⟩ := List.cons.inj h
      exact absurd List.mem_cons_self hy
  | cons x xs ih =>
    cases ys with
    | nil =>
      obtain ⟨rfl, -⟩ := List.cons.inj h
      exact absurd List.mem_cons_self hx
    | cons y ys =>
      obtain ⟨rfl, htail⟩ := List.cons.inj h
      obtain ⟨rfl, hrest⟩ :=
        ih (List.not_mem_of_not_mem_cons hx) (List.not_mem_of_not_mem_cons hy) htail
      exact ⟨rfl, hrest⟩

theorem append_cons_inj_last (hf : d ∉ front) (ho : d ∉ other)
    (h : xs ++ d :: front = ys ++ d :: other) : xs = ys ∧ front = other := by
  have hreverse : front.reverse ++ d :: xs.reverse = other.reverse ++ d :: ys.reverse := by
    simpa using congrArg List.reverse h
  obtain ⟨hfront, hxs⟩ := append_cons_inj (by simpa using hf) (by simpa using ho) hreverse
  exact ⟨List.reverse_inj.1 hxs, List.reverse_inj.1 hfront⟩

end

theorem toList_ofLines (lines : List String) :
    (ofLines lines).toList = ['\n'].intercalate (lines.map String.toList) := by
  rw [ofLines, String.toList_intercalate]
  rfl

theorem splitOn_ofLines {lines : List String} (hne : lines ≠ [])
    (hline : ∀ line ∈ lines, '\n' ∉ line.toList) :
    (ofLines lines).toList.splitOn '\n' = lines.map String.toList := by
  rw [toList_ofLines]
  exact List.splitOn_intercalate '\n' (by simpa using hline) (by simpa using hne)

theorem ofLines_inj {lines others : List String} (hl : lines ≠ []) (ho : others ≠ [])
    (hline : ∀ line ∈ lines, '\n' ∉ line.toList) (hother : ∀ line ∈ others, '\n' ∉ line.toList)
    (h : ofLines lines = ofLines others) : lines = others := by
  have hsplit : lines.map String.toList = others.map String.toList := by
    rw [← splitOn_ofLines hl hline, ← splitOn_ofLines ho hother, h]
  exact List.map_injective_iff.2 (fun _ _ => String.toList_inj.1) hsplit

theorem ofLines_cons (line : String) {lines : List String} (h : lines ≠ []) :
    ofLines (line :: lines) = line ++ "\n" ++ ofLines lines := by
  obtain ⟨next, lines, rfl⟩ := List.exists_cons_of_ne_nil h
  exact String.intercalate_cons_cons

theorem ofLines_append {lines others : List String} (hl : lines ≠ []) (ho : others ≠ []) :
    ofLines (lines ++ others) = ofLines lines ++ "\n" ++ ofLines others := by
  induction lines with
  | nil => exact absurd rfl hl
  | cons line lines ih =>
    cases lines with
    | nil => exact ofLines_cons line ho
    | cons next lines =>
      rw [List.cons_append, ofLines_cons line (by simp), ih (List.cons_ne_nil next lines),
        ofLines_cons line (List.cons_ne_nil next lines)]
      simp only [String.append_assoc]

theorem ofLines_blank {lines others : List String} (hl : lines ≠ []) (ho : others ≠ []) :
    ofLines (lines ++ "" :: "" :: others) = ofLines lines ++ "\n\n\n" ++ ofLines others := by
  have hlines : lines ++ "" :: "" :: others = lines ++ ["", ""] ++ others := by simp
  have hblank : "\n" ++ ofLines ["", ""] ++ "\n" = "\n\n\n" := rfl
  rw [hlines, ofLines_append (by simp) ho, ofLines_append hl (by simp), ← hblank]
  simp only [String.append_assoc]

structure Listing where
  title : String
  heading : String
  rows : List String

def Listing.lines (listing : Listing) : List String :=
  listing.title :: "" :: listing.heading :: listing.rows

/-- The lines of the listings, two blank ones between one listing and the next. -/
def joined (listings : List Listing) : List String :=
  ["", ""].intercalate (listings.map Listing.lines)

def behind : List Listing → List String
  | [] => []
  | listing :: listings => "" :: "" :: joined (listing :: listings)

theorem joined_cons (listing : Listing) (listings : List Listing) :
    joined (listing :: listings) = listing.lines ++ behind listings := by
  cases listings with
  | nil => simp only [joined, behind, List.map_cons, List.map_nil, List.intercalate_singleton,
      List.append_nil]
  | cons next listings =>
    simp only [joined, behind, List.map_cons, List.intercalate_cons_cons, List.append_assoc]
    rfl

theorem joined_ne_nil (listing : Listing) (listings : List Listing) :
    joined (listing :: listings) ≠ [] := by
  rw [joined_cons]
  exact List.cons_ne_nil _ _

theorem ofLines_joined (listings : List Listing) :
    ofLines (joined listings) =
      "\n\n\n".intercalate (listings.map fun listing => ofLines listing.lines) := by
  induction listings with
  | nil => rfl
  | cons listing listings ih =>
    cases listings with
    | nil => rw [joined_cons, behind, List.append_nil, List.map_singleton, String.intercalate_singleton]
    | cons next listings =>
      have hne : listing.lines ≠ [] := List.cons_ne_nil _ _
      rw [joined_cons, behind, ofLines_blank hne (joined_ne_nil next listings), ih]
      exact String.intercalate_cons_cons.symm

theorem rows_inj {rows rows' : List String} {listings others : List Listing} (hrows : "" ∉ rows)
    (hrows' : "" ∉ rows') (h : rows ++ behind listings = rows' ++ behind others) :
    rows = rows' ∧ joined listings = joined others := by
  cases listings with
  | nil =>
    cases others with
    | nil =>
      rw [behind, List.append_nil, List.append_nil] at h
      exact ⟨h, rfl⟩
    | cons other others =>
      rw [behind, List.append_nil] at h
      exact absurd (h ▸ by simp [behind]) hrows
  | cons listing listings =>
    cases others with
    | nil =>
      rw [behind, behind, List.append_nil] at h
      exact absurd (h ▸ by simp) hrows'
    | cons other others =>
      obtain ⟨hsame, hbehind⟩ := append_cons_inj hrows hrows' h
      exact ⟨hsame, (List.cons.inj hbehind).2⟩

/-- Listings without blank rows are told by their lines. -/
theorem joined_inj {listings others : List Listing} (hl : ∀ listing ∈ listings, "" ∉ listing.rows)
    (ho : ∀ listing ∈ others, "" ∉ listing.rows) (h : joined listings = joined others) :
    listings = others := by
  induction listings generalizing others with
  | nil =>
    cases others with
    | nil => rfl
    | cons other others => exact absurd h.symm (joined_ne_nil other others)
  | cons listing listings ih =>
    cases others with
    | nil => exact absurd h (joined_ne_nil listing listings)
    | cons other others =>
      obtain ⟨hrows, hlistings⟩ := List.forall_mem_cons.1 hl
      obtain ⟨hrows', hothers⟩ := List.forall_mem_cons.1 ho
      obtain ⟨title, heading, rows⟩ := listing
      obtain ⟨title', heading', rows'⟩ := other
      simp only [joined_cons, Listing.lines, List.cons_append, List.cons.injEq, true_and] at h
      obtain ⟨rfl, rfl, h⟩ := h
      obtain ⟨rfl, hjoined⟩ := rows_inj hrows hrows' h
      rw [ih hlistings hothers hjoined]

def valueRow (i : Nat) (value : String) : String :=
  s!"\t{i}\t{value}"

def referenceRow (reference : Reference) : String :=
  s!"\t{reference.value}\t({reference.kind.name}, {reference.index})"

def lexemeRow (lexeme : Lexeme) : String :=
  s!"\t{lexeme.value}\t{lexeme.category.name}"

theorem ofLexemes_eq (lexemes : List Lexeme) :
    ofLexemes lexemes = ofLines ("\tLexeme\tCategory" :: "" :: lexemes.map lexemeRow) := by
  rfl

def vocabularyListing (title : String) (values : List String) : Listing :=
  ⟨"\t" ++ title, "\tIndex\tValue", values.mapIdx valueRow⟩

def traceListing (trace : List Reference) : Listing :=
  ⟨"\tStandard symbols", "\tValue\tReference", trace.map referenceRow⟩

def listings (session : Session) : List Listing :=
  [vocabularyListing "Keywords" session.keywords.toList,
    vocabularyListing "Separators" session.separators.toList,
    vocabularyListing "Literals" session.literals.toList,
    vocabularyListing "Identifiers" session.identifiers.toList,
    traceListing session.trace.toList]

theorem ofSession_eq (session : Session) : ofSession session = ofLines (joined (listings session)) := by
  rw [ofLines_joined]
  rfl

theorem toList_valueRow (i : Nat) (value : String) :
    (valueRow i value).toList = '\t' :: ((toString i).toList ++ '\t' :: value.toList) := by
  have hrow : valueRow i value = "\t" ++ toString i ++ "\t" ++ value := rfl
  rw [hrow]
  simp

theorem toList_referenceRow (reference : Reference) :
    (referenceRow reference).toList = '\t' :: (reference.value.toList ++ '\t' :: '(' ::
      (reference.kind.name.toList ++ ',' :: ' ' :: ((toString reference.index).toList ++ [')']))) := by
  have hrow : referenceRow reference = "\t" ++ reference.value ++ "\t(" ++ reference.kind.name ++ ", " ++
    toString reference.index ++ ")" := rfl
  rw [hrow]
  simp

theorem toList_lexemeRow (lexeme : Lexeme) :
    (lexemeRow lexeme).toList =
      '\t' :: (lexeme.value.toList ++ '\t' :: lexeme.category.name.toList) := by
  have hrow : lexemeRow lexeme = "\t" ++ lexeme.value ++ "\t" ++ lexeme.category.name := rfl
  rw [hrow]
  simp

theorem valueRow_injective (i : Nat) : Function.Injective (valueRow i) := by
  intro value other h
  have hchars := congrArg String.toList h
  rw [toList_valueRow, toList_valueRow] at hchars
  have hvalue := List.append_cancel_left (List.cons.inj hchars).2
  exact String.toList_inj.1 (List.cons.inj hvalue).2

theorem not_mem_kindName {c : Char} (hc : c = '\t' ∨ c = ',' ∨ c = '\n') (kind : Kind) :
    c ∉ kind.name.toList := by
  obtain rfl | rfl | rfl := hc <;> cases kind <;> decide

theorem referenceRow_injective : Function.Injective referenceRow := by
  rintro ⟨value, kind, index⟩ ⟨value', kind', index'⟩ h
  have htab (kind : Kind) (index : Int) :
      '\t' ∉ '(' :: (kind.name.toList ++ ',' :: ' ' :: ((toString index).toList ++ [')'])) := by
    have hname : '\t' ∉ kind.name.toList := not_mem_kindName (.inl rfl) kind
    have hdigits : '\t' ∉ (toString index).toList := Text.not_mem_toString rfl (by decide) index
    simpa [-Int.toString_eq_repr] using ⟨hname, hdigits⟩
  have hcomma (kind : Kind) : ',' ∉ kind.name.toList := not_mem_kindName (.inr (.inl rfl)) kind
  have hchars := congrArg String.toList h
  rw [toList_referenceRow, toList_referenceRow] at hchars
  -- the value may hold tabs of its own, but there are none behind the last one of the row
  obtain ⟨hvalue, hplace⟩ :=
    append_cons_inj_last (htab kind index) (htab kind' index') (List.cons.inj hchars).2
  obtain ⟨hkind, hindex⟩ := append_cons_inj (hcomma kind) (hcomma kind') (List.cons.inj hplace).2
  have hends : Text.EndsNumber [')'] := Text.endsNumber_cons rfl []
  have hread := Text.readInt_toString index hends
  rw [(List.cons.inj hindex).2, Text.readInt_toString index' hends] at hread
  obtain rfl : value = value' := String.toList_inj.1 hvalue
  obtain rfl : kind = kind' := Kind.name_injective (String.toList_inj.1 hkind)
  obtain rfl : index' = index := (Prod.mk.inj (Option.some.inj hread)).1
  rfl

theorem not_mem_categoryName {category : Category} (h : category.Scanned) {c : Char}
    (hc : c = '\t' ∨ c = '\n') : c ∉ category.name.toList := by
  cases category with
  | unknown word => exact absurd rfl (h word)
  | literal | separator | identifier => obtain rfl | rfl := hc <;> decide

theorem category_of_name {category other : Category} (hs : category.Scanned) (ho : other.Scanned)
    (h : category.name = other.name) : category = other := by
  cases category with
  | unknown word => exact absurd rfl (hs word)
  | literal | separator | identifier =>
    cases other with
    | unknown word => exact absurd rfl (ho word)
    | literal | separator | identifier => first | rfl | exact absurd h (by decide)

theorem content_of_lexemeRow {lexeme other : Lexeme} (hs : lexeme.category.Scanned)
    (ho : other.category.Scanned) (h : lexemeRow lexeme = lexemeRow other) :
    lexeme.content = other.content := by
  have hchars := congrArg String.toList h
  rw [toList_lexemeRow, toList_lexemeRow] at hchars
  obtain ⟨hvalue, hname⟩ := append_cons_inj_last (not_mem_categoryName hs (.inl rfl))
    (not_mem_categoryName ho (.inl rfl)) (List.cons.inj hchars).2
  rw [Lexeme.content, Lexeme.content, String.toList_inj.1 hvalue,
    category_of_name hs ho (String.toList_inj.1 hname)]

structure Solid (line : String) : Prop where
  ne_empty : line ≠ ""
  line : '\n' ∉ line.toList

theorem Solid.of_tab {line : String} {chars : List Char} (h : line.toList = '\t' :: chars)
    (hline : '\n' ∉ chars) : Solid line where
  ne_empty := by
    rintro rfl
    cases h
  line := by
    rw [h]
    exact List.not_mem_cons_of_ne_of_not_mem (by decide) hline

theorem solid_valueRow (i : Nat) {value : String} (h : '\n' ∉ value.toList) :
    Solid (valueRow i value) := by
  have hdigits : '\n' ∉ (toString i).toList := Text.not_mem_repr rfl i
  refine .of_tab (toList_valueRow i value) ?_
  simpa [-Nat.toString_eq_repr] using ⟨hdigits, h⟩

theorem solid_referenceRow {reference : Reference} (h : '\n' ∉ reference.value.toList) :
    Solid (referenceRow reference) := by
  have hname : '\n' ∉ reference.kind.name.toList := not_mem_kindName (.inr (.inr rfl)) reference.kind
  have hdigits : '\n' ∉ (toString reference.index).toList :=
    Text.not_mem_toString rfl (by decide) reference.index
  refine .of_tab (toList_referenceRow reference) ?_
  simpa [-Int.toString_eq_repr] using ⟨h, hname, hdigits⟩

theorem solid_lexemeRow {lexeme : Lexeme} (h : lexeme.OneLine) : Solid (lexemeRow lexeme) := by
  have hname : '\n' ∉ lexeme.category.name.toList := not_mem_categoryName h.scanned (.inr rfl)
  refine .of_tab (toList_lexemeRow lexeme) ?_
  simpa using ⟨h.line, hname⟩

theorem not_mem_rows {rows : List String} (h : ∀ row ∈ rows, Solid row) : "" ∉ rows :=
  fun hm => (h "" hm).ne_empty rfl

structure Listing.Solid (listing : Listing) : Prop where
  title : '\n' ∉ listing.title.toList
  heading : '\n' ∉ listing.heading.toList
  rows : ∀ row ∈ listing.rows, Report.Solid row

theorem Listing.Solid.lines {listing : Listing} (h : listing.Solid) :
    ∀ line ∈ listing.lines, '\n' ∉ line.toList := by
  simp only [Listing.lines, List.forall_mem_cons]
  exact ⟨h.title, List.not_mem_nil, h.heading, fun row hr => (h.rows row hr).line⟩

theorem newline_not_mem_joined {listings : List Listing} (h : ∀ listing ∈ listings, listing.Solid) :
    ∀ line ∈ joined listings, '\n' ∉ line.toList := by
  induction listings with
  | nil => exact nofun
  | cons listing listings ih =>
    obtain ⟨hlisting, hlistings⟩ := List.forall_mem_cons.1 h
    rw [joined_cons, List.forall_mem_append]
    refine ⟨hlisting.lines, ?_⟩
    cases listings with
    | nil => exact nofun
    | cons next listings =>
      simp only [behind, List.forall_mem_cons]
      exact ⟨List.not_mem_nil, List.not_mem_nil, ih hlistings⟩

theorem solid_vocabularyListing {title : String} {values : List String} (ht : '\n' ∉ title.toList)
    (h : ∀ value ∈ values, '\n' ∉ value.toList) : (vocabularyListing title values).Solid where
  title := by
    rw [vocabularyListing, String.toList_append]
    simpa using ht
  heading := (by decide : '\n' ∉ "\tIndex\tValue".toList)
  rows := by
    intro row hr
    obtain ⟨i, hi, rfl⟩ := List.mem_mapIdx.1 hr
    exact solid_valueRow i (h _ (List.getElem_mem hi))

theorem solid_traceListing {trace : List Reference}
    (h : ∀ reference ∈ trace, '\n' ∉ reference.value.toList) : (traceListing trace).Solid where
  title := (by decide : '\n' ∉ "\tStandard symbols".toList)
  heading := (by decide : '\n' ∉ "\tValue\tReference".toList)
  rows := List.forall_mem_map.2 fun reference hr => solid_referenceRow (h reference hr)

theorem solid_listings {session : Session} (h : session.OneLine) :
    ∀ listing ∈ listings session, listing.Solid := by
  simp only [listings, List.forall_mem_cons, List.not_mem_nil, false_imp_iff, implies_true, and_true]
  exact ⟨solid_vocabularyListing (by decide) (h.entries .keyword),
    solid_vocabularyListing (by decide) (h.entries .separator),
    solid_vocabularyListing (by decide) (h.entries .literal),
    solid_vocabularyListing (by decide) (h.entries .identifier), solid_traceListing h.trace⟩

theorem values_of_rows {values others : List String}
    (h : values.mapIdx valueRow = others.mapIdx valueRow) : values = others := by
  apply List.ext_getElem?
  intro i
  have hi := congrArg (·[i]?) h
  simp only [List.getElem?_mapIdx] at hi
  exact Option.map_injective (valueRow_injective i) hi

theorem eq_of_listings {session other : Session} (h : listings session = listings other) :
    session.keywords = other.keywords ∧ session.separators = other.separators ∧
      session.literals = other.literals ∧ session.identifiers = other.identifiers ∧
      session.trace = other.trace := by
  simp only [listings, vocabularyListing, traceListing, List.cons.injEq, Listing.mk.injEq, true_and,
    and_true] at h
  obtain ⟨hk, hs, hl, hi, ht⟩ := h
  exact ⟨Vocabulary.toList_inj (values_of_rows hk), Vocabulary.toList_inj (values_of_rows hs),
    Vocabulary.toList_inj (values_of_rows hl), Vocabulary.toList_inj (values_of_rows hi),
    Array.toList_inj.1 (List.map_injective_iff.2 referenceRow_injective ht)⟩

theorem joined_listings_ne_nil (session : Session) : joined (listings session) ≠ [] :=
  joined_ne_nil _ _

theorem eq_of_ofSession {session other : Session} (hs : session.OneLine) (ho : other.OneLine)
    (h : ofSession session = ofSession other) : listings session = listings other := by
  have hsolid := solid_listings hs
  have hsolid' := solid_listings ho
  rw [ofSession_eq, ofSession_eq] at h
  have hlines := ofLines_inj (joined_listings_ne_nil session) (joined_listings_ne_nil other)
    (newline_not_mem_joined hsolid) (newline_not_mem_joined hsolid') h
  exact joined_inj (fun listing hl => not_mem_rows (hsolid listing hl).rows)
    (fun listing hl => not_mem_rows (hsolid' listing hl).rows) hlines

theorem contents_of_rows {lexemes others : List Lexeme} (hl : ∀ lexeme ∈ lexemes, lexeme.OneLine)
    (ho : ∀ lexeme ∈ others, lexeme.OneLine) (h : lexemes.map lexemeRow = others.map lexemeRow) :
    lexemes.map Lexeme.content = others.map Lexeme.content := by
  induction lexemes generalizing others with
  | nil =>
    cases others with
    | nil => rfl
    | cons => cases h
  | cons lexeme lexemes ih =>
    cases others with
    | nil => cases h
    | cons other others =>
      obtain ⟨hlexeme, hlexemes⟩ := List.forall_mem_cons.1 hl
      obtain ⟨hother, hothers⟩ := List.forall_mem_cons.1 ho
      obtain ⟨hrow, hrows⟩ := List.cons.inj h
      rw [List.map_cons, List.map_cons, content_of_lexemeRow hlexeme.scanned hother.scanned hrow,
        ih hlexemes hothers hrows]

theorem newline_not_mem_lexemeLines {lexemes : List Lexeme} (h : ∀ lexeme ∈ lexemes, lexeme.OneLine) :
    ∀ line ∈ "\tLexeme\tCategory" :: "" :: lexemes.map lexemeRow, '\n' ∉ line.toList := by
  simp only [List.forall_mem_cons, List.forall_mem_map]
  exact ⟨by decide, List.not_mem_nil, fun lexeme hl => (solid_lexemeRow (h lexeme hl)).line⟩

theorem contents_of_ofLexemes {lexemes others : List Lexeme}
    (hl : ∀ lexeme ∈ lexemes, lexeme.OneLine) (ho : ∀ lexeme ∈ others, lexeme.OneLine)
    (h : ofLexemes lexemes = ofLexemes others) :
    lexemes.map Lexeme.content = others.map Lexeme.content := by
  rw [ofLexemes_eq, ofLexemes_eq] at h
  have hlines := ofLines_inj (List.cons_ne_nil _ _) (List.cons_ne_nil _ _)
    (newline_not_mem_lexemeLines hl) (newline_not_mem_lexemeLines ho) h
  exact contents_of_rows hl ho (List.cons.inj (List.cons.inj hlines).2).2

/-- No report of texts without a newline is the report of anything else: sessions reported alike have
the same vocabularies and the same trace, and lexemes reported alike the same contents. Lexemes that
are scanned have no newline in them, and a session that is given no text with one never has one. -/
theorem reports_inj :
    (∀ session other : Session, session.OneLine → other.OneLine →
      ofSession session = ofSession other →
        session.keywords = other.keywords ∧ session.separators = other.separators ∧
          session.literals = other.literals ∧ session.identifiers = other.identifiers ∧
          session.trace = other.trace) ∧
      (∀ lexemes others : List Lexeme, (∀ lexeme ∈ lexemes, lexeme.OneLine) →
        (∀ lexeme ∈ others, lexeme.OneLine) → ofLexemes lexemes = ofLexemes others →
          lexemes.map Lexeme.content = others.map Lexeme.content) ∧
      (∀ (failFast : Bool) (text : String),
        ∀ lexeme ∈ (Scan.ofText failFast text).lexemes, lexeme.OneLine) ∧
      ∀ (keywords separators : List String) (start : Session) (calls : List Session.Call),
        Session.ofLists keywords separators = .ok start →
        (∀ value ∈ keywords ++ separators, '\n' ∉ value.toList) →
        (∀ call ∈ calls, call.OneLine) → (start.run calls).OneLine := by
  refine ⟨?_, ?_, ?_, ?_⟩
  · exact fun session other hs ho h => eq_of_listings (eq_of_ofSession hs ho h)
  · exact fun lexemes others hl ho h => contents_of_ofLexemes hl ho h
  · exact fun failFast text lexeme hl => (Scan.wellFormed_ofText failFast text lexeme hl).oneLine
  · exact fun keywords separators start calls hstart hline hcalls =>
      Session.oneLine_run (Session.oneLine_ofLists hstart hline) calls hcalls

theorem reports_inj_tabs :
    ∃ start, Session.ofLists ["\tKeywords", ""] ["\t0\t(keyword, 0)", ";"] = .ok start ∧
      let session := start.run [.analyze "x 7;", .register [⟨"a\t(b, 1)", .literal, {}⟩]]
      let other := start.run [.diagnose "@", .diagnose "x # 7\n7 ;",
        .classify false [⟨"a\t(b, 1)", .literal, ⟨3, 4⟩⟩]]
      let lexemes : List Lexeme := [⟨"a\tliteral", .identifier, {}⟩, ⟨"", .literal, {}⟩]
      let others : List Lexeme := [⟨"a\tliteral", .identifier, ⟨1, 2⟩⟩, ⟨"", .literal, ⟨5, 5⟩⟩]
      session.trace.size = 4 ∧ session.trace = other.trace ∧
        lexemes.map Lexeme.content = others.map Lexeme.content := by
  have hstart : Session.ofLists ["\tKeywords", ""] ["\t0\t(keyword, 0)", ";"] = .ok
      { keywords := Vocabulary.empty.internAll ["\tKeywords", ""],
        separators := Vocabulary.empty.internAll ["\t0\t(keyword, 0)", ";"] } := by rfl
  obtain ⟨hsessions, hlexemes, -, hruns⟩ := reports_inj
  refine ⟨_, hstart, ?_⟩
  intro session other lexemes others
  have hs : session.OneLine := hruns _ _ _ _ hstart (by decide) (by simp [Session.Call.OneLine])
  have ho : other.OneLine := hruns _ _ _ _ hstart (by decide) (by simp [Session.Call.OneLine])
  have hreport : ofSession session = ofSession other := by decide +kernel
  have hl : ∀ lexeme ∈ lexemes, lexeme.OneLine := by
    simp only [lexemes, List.forall_mem_cons, List.not_mem_nil, false_imp_iff, implies_true, and_true]
    exact ⟨⟨nofun, by decide⟩, ⟨nofun, by decide⟩⟩
  have ho' : ∀ lexeme ∈ others, lexeme.OneLine := by
    simp only [others, List.forall_mem_cons, List.not_mem_nil, false_imp_iff, implies_true, and_true]
    exact ⟨⟨nofun, by decide⟩, ⟨nofun, by decide⟩⟩
  have hlisted : ofLexemes lexemes = ofLexemes others := by decide +kernel
  exact ⟨by decide +kernel, (hsessions session other hs ho hreport).2.2.2.2,
    hlexemes lexemes others hl ho' hlisted⟩

end Lexicon.Report
