import Mathlib
import CellScript.Proofs.Shorthand.LookAhead

/-! Names in double quotes between the brackets of an accessor. A source that starts with such an
accessor has it for its first token, and its code starts with a reference to the field, exactly when
the name has no closing bracket. At the first closing bracket the accessor ends, be it in the quotes
or not. -/
namespace CellScript.Shorthand

open Script (quoteWith)

/-- The accessor with the reference of a field between its brackets. -/
def Field.accessor (f : Field) : Text :=
  f.cast.letter::Text.ascii '['::(f.ref ++ [Text.ascii ']'])

/-- A field by a name in double quotes. -/
def Field.named (c : Cast) (n : Text) : Field := ⟨c,quoteWith (Text.ascii '"') n⟩

/-- The first fragment of the code of an accessor in front. -/
def Field.leading (f : Field) (assigned : Bool) : Text :=
  if assigned then f.target ++ " = " else f.read

lemma scan_accessor {f : Field} (hb : Text.ascii ']' ∉ f.ref)
    (hk : bodyKind? f.ref = some .accessor) (rest : Text) :
    ∃ ts, scan (f.accessor ++ rest) = ⟨.accessor,f.accessor,0⟩::ts := by
  have hp : Piece none .accessor f.accessor rest :=
    .accessor rfl (Assignment.isCastLetter_letter f.cast) hb hk
  have hblank : ∀ b ∈ f.accessor.head?, Text.isBlank b = false := by
    rintro b ⟨⟩
    cases f.cast <;> rfl
  exact ⟨_,scanFrom_token hblank hp⟩

lemma field_accessor {f : Field} (h : Text.blankOnly f.ref = false) (quoting : Bool) (pos : ℕ) :
    Token.field quoting ⟨.accessor,f.accessor,pos⟩ = .ok f :=
  Token.field_of_split (Token.split_bracketed (Assignment.ofLetter?_letter f.cast) h .accessor pos)

namespace Word

lemma head_statement (f : Field) (label : Option Text) (ws : List Word) :
    (statement (accessor f label::ws)).head? =
      some (f.leading (ws.head?.any isAssignment)) := by
  cases ws with
  | nil => rfl
  | cons w ws =>
    cases hw : w.isAssignment with
    | true =>
      cases w with
      | assignment op =>
        rw [← List.nil_append (accessor f label::assignment op::ws),statement_of_target (by simp)]
        simp [opening,Field.leading,isAssignment]
      | _ => simp [isAssignment] at hw
    | false =>
      have htake : (accessor f label::w::ws).takeWhile (!·.isAssignment) =
          accessor f label::w::ws.takeWhile (!·.isAssignment) := by
        rw [List.takeWhile_cons_of_pos rfl,List.takeWhile_cons_of_pos (by rw [hw]; rfl)]
      unfold statement
      rw [htake]
      dsimp only
      split <;> simp [Field.leading,hw,shown]

lemma head_statements (f : Field) (label : Option Text) (ws : List Word) :
    (statements (accessor f label::ws)).head? =
      some (f.leading (ws.head?.any isAssignment)) := by
  cases hfind : ws.find? isSeparator with
  | none =>
    have hsep : ∀ w ∈ accessor f label::ws, w.isSeparator = false := by
      simpa [isSeparator] using hfind
    rw [statements_of_one hsep,head_statement]
  | some w =>
    obtain ⟨hw,front,rest,rfl,hfree⟩ := List.find?_eq_some_iff_append.mp hfind
    have hsep : ∀ x ∈ accessor f label::front, x.isSeparator = false := by
      simpa [isSeparator] using hfree
    cases w with
    | separator =>
      rw [← List.cons_append,statements_separator hsep,List.head?_append,head_statement]
      cases front <;> rfl
    | _ => simp [isSeparator] at hw

end Word

lemma Token.isAssignment_word {quoting : Bool} {n : ℕ} {t : Token} {w : Word}
    (h : t.word quoting n = .ok w) : w.isAssignment = decide (t.kind = .assignment) := by
  rcases Token.word_eq_ok h with ⟨f,hk,-,rfl⟩ | ⟨f,label,hk,rfl⟩ | ⟨op,hk,rfl⟩ | ⟨hk,rfl⟩ | ⟨hk,rfl⟩
  · rcases hk with hk | hk <;> rw [hk] <;> rfl
  all_goals
    rw [hk]
    rfl

lemma head_words {quoting : Bool} {k : ℕ} {ts : List Token} {ws : List Word}
    (h : words quoting k ts = .ok ws) :
    ws.head?.any Word.isAssignment = ts.head?.any fun t => t.kind = .assignment := by
  cases ts with
  | nil =>
    rw [← Except.ok.inj h]
    rfl
  | cons t ts =>
    obtain ⟨w,us,rfl,hw,-⟩ := words_cons_eq_ok h
    exact Token.isAssignment_word hw

lemma prefix_glueAll (w : Text) (ws : List Text) : w <+: glueAll (w::ws) := by
  have hjoint : joint none w = [] := rfl
  rw [glueAll_eq,glueFrom,hjoint,List.nil_append]
  apply List.prefix_append

/-- A filter is accepted when each of its tokens is. -/
lemma isOk_expand_filter (quoting : Bool) (src : Text) :
    (expand .filter quoting src).isOk = (scan src).all fun t => (t.reading quoting).isOk := by
  have hall : ∀ ts : List Token, (ts.mapM (Token.reading quoting)).isOk =
      ts.all fun t => (t.reading quoting).isOk := by
    intro ts
    induction ts with
    | nil => rfl
    | cons t ts ih =>
      rw [List.mapM_cons,List.all_cons,← ih]
      cases t.reading quoting with
      | error e => rfl
      | ok w => cases ts.mapM (Token.reading quoting) <;> rfl
  rw [expand_filter,← hall]
  cases (scan src).mapM (Token.reading quoting) <;> rfl

/-- A source that starts with the accessor of a field, and then has further tokens. It is accepted
when they are, and then its code starts with a reference to the field: with one that is assigned to
in a statement that goes on with an assignment operator, and with one that is read otherwise. -/
structure Refers (quoting : Bool) (src : Text) (f : Field) (ts : List Token) : Prop where
  first : scan src = ⟨.accessor,f.accessor,0⟩::ts
  filter : (expand .filter quoting src).isOk = ts.all fun t => (t.reading quoting).isOk
  filter_code : ∀ x, expand .filter quoting src = .ok x → f.read <+: x.code
  statement : (expand .statement quoting src).isOk = ts.all (Token.accepted quoting)
  statement_code : ∀ x, expand .statement quoting src = .ok x →
    f.leading (ts.head?.any fun t => t.kind = .assignment) <+: x.code

lemma refers_of_scan {src : Text} {f : Field} {ts : List Token}
    (h : scan src = ⟨.accessor,f.accessor,0⟩::ts) (hf : Text.blankOnly f.ref = false)
    (quoting : Bool) : Refers quoting src f ts := by
  have hfield := field_accessor hf quoting 0
  have hread : Token.reading quoting ⟨.accessor,f.accessor,0⟩ = .ok f.read := by
    rw [Token.reading,hfield]
    rfl
  have hword : Token.word quoting 1 ⟨.accessor,f.accessor,0⟩ = .ok (.accessor f none) := by
    rw [Token.word,hfield]
    rfl
  refine ⟨h,?_,?_,?_,?_⟩
  · rw [isOk_expand_filter,h,List.all_cons,hread]
    rfl
  · intro x hx
    rw [expand_filter,h,List.mapM_cons,hread] at hx
    cases hus : ts.mapM (Token.reading quoting) with
    | error e => simp [hus,bind,Except.bind] at hx
    | ok us =>
      simp only [hus,bind,Except.bind,pure,Except.pure,Except.ok.injEq] at hx
      rw [← hx]
      apply prefix_glueAll
  · rw [isOk_expand,h,List.all_cons,Token.accepted,hfield]
    rfl
  · intro x hx
    rw [expand_statement,h] at hx
    cases hws : words quoting 0 (⟨.accessor,f.accessor,0⟩::ts) with
    | error e => simp [hws,bind,Except.bind] at hx
    | ok ws =>
      obtain ⟨w,us,rfl,hw,hus⟩ := words_cons_eq_ok hws
      rw [hword,Except.ok.injEq] at hw
      obtain ⟨fragments,hfragments⟩ :=
        List.head?_eq_some_iff.mp (Word.head_statements f none us)
      simp only [hws,bind,Except.bind,pure,Except.pure,Except.ok.injEq] at hx
      rw [← hx,← hw,Draft.finish_words,hfragments,← head_words hus]
      apply prefix_glueAll

/-- An accessor whose content starts with a quote ends at its first closing bracket. -/
lemma refers_accessor {f : Field} {t : Text} (hf : f.ref = Text.ascii '"'::t)
    (ht : Text.ascii ']' ∉ t) (quoting : Bool) (rest : Text) :
    ∃ ts, Refers quoting (f.accessor ++ rest) f ts := by
  have hbracket : Text.ascii ']' ≠ Text.ascii '"' := by decide
  have hbody : bodyKind? f.ref = some .accessor := by
    rw [hf]
    exact bodyKind?_of_quote (by decide) t
  have hblank : Text.blankOnly f.ref = false :=
    Text.not_blankOnly_of_mem (b := Text.ascii '"') (by decide) (by simp [hf])
  obtain ⟨ts,hts⟩ := scan_accessor (by simp [hf,hbracket,ht]) hbody rest
  exact ⟨ts,refers_of_scan hts hblank quoting⟩

/-- A closing bracket in the quotes ends the accessor. -/
lemma refers_cut (c : Cast) {p : Text} (hp : Text.ascii ']' ∉ p) (u : Text) (quoting : Bool)
    (rest : Text) : ∃ ts, Refers quoting
      ((Field.named c (p ++ Text.ascii ']'::u)).accessor ++ rest) ⟨c,Text.ascii '"'::p⟩ ts := by
  have hsrc : (Field.named c (p ++ Text.ascii ']'::u)).accessor ++ rest =
      Field.accessor ⟨c,Text.ascii '"'::p⟩ ++ (u ++ Text.ascii '"'::Text.ascii ']'::rest) := by
    simp [Field.accessor,Field.named,quoteWith]
  rw [hsrc]
  exact refers_accessor rfl hp quoting _

/-- A source that starts with an accessor with a name in double quotes has the accessor for its first
token, and its code refers to the field with the name first, exactly when the name has no closing
bracket. Otherwise all of that goes for the accessor up to the first closing bracket, with a quote
that is never closed. -/
theorem quoted_key_iff (quoting : Bool) (c : Cast) (n rest : Text) :
    ((∃ ts, Refers quoting ((Field.named c n).accessor ++ rest) (Field.named c n) ts) ↔
      Text.ascii ']' ∉ n) ∧
    ∀ p u, n = p ++ Text.ascii ']'::u → Text.ascii ']' ∉ p →
      ∃ ts, Refers quoting ((Field.named c n).accessor ++ rest) ⟨c,Text.ascii '"'::p⟩ ts := by
  refine ⟨⟨?_,?_⟩,?_⟩
  · rintro ⟨ts,hts⟩ hn
    obtain ⟨p,u,rfl,hp⟩ := List.eq_append_cons_of_mem hn
    obtain ⟨us,hus⟩ := refers_cut c hp u quoting rest
    have hfirst := hts.first
    rw [hus.first,List.cons.injEq,Token.mk.injEq] at hfirst
    have hlen := congrArg List.length hfirst.1.2.1
    simp only [Field.accessor,Field.named,quoteWith,List.length_cons,List.length_append,
      List.length_nil] at hlen
    omega
  · intro hn
    apply refers_accessor rfl
    simp only [List.mem_append,List.mem_singleton,not_or]
    exact ⟨hn,by decide⟩
  · rintro p u rfl hp
    exact refers_cut c hp u quoting rest

/-- A name with a blank is found as a whole, and one with a unit in brackets is cut. -/
theorem quoted_key_unit :
    (∃ ts, Refers true (Text.ofString "s[\"first name\"] += 1")
      (Field.named .toText (Text.ofString "first name")) ts) ∧
    ∃ ts, Refers true (Text.ofString "s[\"price [USD]\"] += 1")
      ⟨.toText,Text.ofString "\"price [USD"⟩ ts := by
  have hname : Text.ofString "s[\"first name\"] += 1" =
      (Field.named .toText (Text.ofString "first name")).accessor ++ Text.ofString " += 1" := by
    decide +kernel
  have hprice : Text.ofString "s[\"price [USD]\"] += 1" =
      (Field.named .toText (Text.ofString "price [USD]")).accessor ++ Text.ofString " += 1" := by
    decide +kernel
  have hcut : Text.ofString "price [USD]" = Text.ofString "price [USD" ++ [Text.ascii ']'] := by
    decide +kernel
  rw [hname,hprice]
  constructor
  · exact (quoted_key_iff true .toText _ _).1.mpr (by decide +kernel)
  · exact (quoted_key_iff true .toText _ _).2 _ [] hcut (by decide +kernel)

/-- A name without quotes, backslashes and line ends whose accessor is no token. The operator behind
it is taken for a part of a literal, and the field for one that is read. -/
theorem quoted_key_swallows_operator :
    (∀ b ∈ [Text.ascii '"',Text.ascii '\\',Text.ascii '\n'], b ∉ Text.ofString "price [USD]") ∧
    (Field.named .toText (Text.ofString "price [USD]")).accessor ++ Text.ofString " += 1" =
      Text.ofString "s[\"price [USD]\"] += 1" ∧
    scan (Text.ofString "s[\"price [USD]\"] += 1") =
      [⟨.accessor,Text.ofString "s[\"price [USD]",0⟩,⟨.passthrough,Text.ofString "\"] += 1",14⟩] ∧
    (∀ ts, scan (Text.ofString "s[\"price [USD]\"] += 1") ≠
      ⟨.accessor,Text.ofString "s[\"price [USD]\"]",0⟩::ts) ∧
    expand .statement true (Text.ofString "s[\"price [USD]\"] += 1") =
      .ok ⟨Text.ofString "row.str[\"price [USD]\"] += 1",[]⟩ := by
  have hscan : scan (Text.ofString "s[\"price [USD]\"] += 1") =
      [⟨.accessor,Text.ofString "s[\"price [USD]",0⟩,⟨.passthrough,Text.ofString "\"] += 1",14⟩] := by
    decide +kernel
  refine ⟨by decide +kernel,by decide +kernel,hscan,?_,by decide +kernel⟩
  intro ts hts
  rw [hscan,List.cons.injEq,Token.mk.injEq] at hts
  exact absurd hts.1.2.1 (by decide +kernel)

end CellScript.Shorthand
