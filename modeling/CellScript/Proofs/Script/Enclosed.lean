import Mathlib
import CellScript.Proofs.Script.Lexeme

/-! What stands between the quotes of a string literal. Lexing reads it rune by rune, and its bytes
follow the same pattern. -/
namespace CellScript.Script

/-- Symbols that no quote cuts short: others than the quote and the backslash, and backslashes with
something behind them that they escape. -/
inductive Enclosed {α : Type} (slash quote : α) (escapes : α → Prop) : List α → Prop
  | nil : Enclosed slash quote escapes []
  | plain {a : α} {t : List α} : a ≠ slash → a ≠ quote → Enclosed slash quote escapes t →
      Enclosed slash quote escapes (a::t)
  | escape {a : α} {t : List α} : escapes a → Enclosed slash quote escapes t →
      Enclosed slash quote escapes (slash::a::t)

namespace Enclosed

variable {α : Type} {slash quote : α} {escapes : α → Prop}

lemma plain_iff {a : α} (h : a ≠ slash) {t : List α} : Enclosed slash quote escapes (a::t) ↔
    a ≠ quote ∧ Enclosed slash quote escapes t := by
  constructor
  · intro ht
    cases ht with
    | plain _ hq ht => exact ⟨hq,ht⟩
    | escape => exact absurd rfl h
  · rintro ⟨hq,ht⟩
    exact .plain h hq ht

lemma escape_iff {a : α} {t : List α} : Enclosed slash quote escapes (slash::a::t) ↔
    escapes a ∧ Enclosed slash quote escapes t := by
  constructor
  · intro ht
    cases ht with
    | plain h => exact absurd rfl h
    | escape ha ht => exact ⟨ha,ht⟩
  · rintro ⟨ha,ht⟩
    exact .escape ha ht

lemma not_slash : ¬ Enclosed slash quote escapes [slash] := by
  intro h
  cases h with
  | plain h => exact h rfl

lemma append_plain_iff {w : List α} (h : ∀ a ∈ w, a ≠ slash ∧ a ≠ quote) {t : List α} :
    Enclosed slash quote escapes (w ++ t) ↔ Enclosed slash quote escapes t := by
  induction w with
  | nil => rfl
  | cons a w ih =>
    obtain ⟨hs,hq⟩ := h a (by simp)
    rw [List.cons_append,plain_iff hs,ih fun b hb => h b (by simp [hb])]
    exact and_iff_right hq

lemma head?_ne (hq : quote ≠ slash) {t : List α} (h : Enclosed slash quote escapes t) :
    t.head? ≠ some quote := by
  cases h with
  | nil => simp
  | plain _ hne _ => simpa using hne
  | escape _ _ => simpa using hq.symm

lemma mono {more : α → Prop} (h : ∀ a, escapes a → more a) {t : List α}
    (ht : Enclosed slash quote escapes t) : Enclosed slash quote more t := by
  induction ht with
  | nil => exact .nil
  | plain hs hq _ ih => exact .plain hs hq ih
  | escape ha _ ih => exact .escape (h _ ha) ih

/-- What is escaped in an enclosed text stands behind a backslash that has an enclosed text in front
of it. -/
theorem escapes_iff {t : List α} : Enclosed slash quote escapes t ↔
    Enclosed slash quote (fun _ => True) t ∧
      ∀ u a v, t = u ++ slash::a::v → Enclosed slash quote (fun _ => True) u → escapes a := by
  constructor
  · intro ht
    refine ⟨ht.mono fun _ _ => trivial,?_⟩
    induction ht with
    | nil => simp
    | @plain b t hs _ _ ih =>
      intro u a v heq hu
      cases u with
      | nil => exact absurd (List.cons.inj heq).1 hs
      | cons c u =>
        obtain ⟨rfl,htail⟩ := List.cons.inj heq
        exact ih u a v htail ((plain_iff hs).mp hu).2
    | @escape b t hb _ ih =>
      intro u a v heq hu
      match u with
      | [] =>
        obtain ⟨rfl,-⟩ := List.cons.inj (List.cons.inj heq).2
        exact hb
      | [c] =>
        obtain ⟨rfl,-⟩ := List.cons.inj heq
        exact absurd hu not_slash
      | c::d::u =>
        obtain ⟨rfl,htwo⟩ := List.cons.inj heq
        obtain ⟨rfl,htail⟩ := List.cons.inj htwo
        exact ih u a v htail (escape_iff.mp hu).2
  · rintro ⟨ht,h⟩
    induction ht with
    | nil => exact .nil
    | @plain b t hs hq _ ih =>
      refine .plain hs hq (ih fun u a v heq hu => ?_)
      exact h (b::u) a v (by rw [heq]; rfl) (.plain hs hq hu)
    | @escape b t _ _ ih =>
      refine .escape (h [] b t rfl .nil) (ih fun u a v heq hu => ?_)
      exact h (slash::b::u) a v (by rw [heq]; rfl) (.escape trivial hu)

end Enclosed

/-- A literal goes from behind its quote to the first quote that no backslash escapes. -/
theorem stringRest?_eq_some_iff {q : Rune} (hq : q ≠ .char '\\') {rs : List Rune} {n : ℕ} :
    stringRest? q rs = some n ↔ ∃ body rest, rs = body ++ q::rest ∧
      Enclosed (.char '\\') q (· ≠ .char '\n') body ∧ n = body.length+1 := by
  constructor
  · intro h
    fun_induction stringRest? q rs generalizing n with
    | case1 | case2 | case3 => simp at h
    | case4 r hr s rest hs ih =>
      obtain ⟨m,hm,rfl⟩ := Option.map_eq_some_iff.mp h
      obtain ⟨body,more,rfl,hb,rfl⟩ := ih hm
      obtain rfl := Rune.isAscii_iff.mp hr
      exact ⟨_::s::body,more,rfl,.escape (by simpa using hs) hb,rfl⟩
    | case5 rest hr =>
      exact ⟨[],rest,rfl,.nil,by simpa using h.symm⟩
    | case6 r rest hr hne ih =>
      obtain ⟨m,hm,rfl⟩ := Option.map_eq_some_iff.mp h
      obtain ⟨body,more,rfl,hb,rfl⟩ := ih hm
      exact ⟨r::body,more,rfl,.plain (by simpa using hr) hne hb,rfl⟩
  · rintro ⟨body,rest,rfl,hb,rfl⟩
    induction hb with
    | nil =>
      rw [List.nil_append,stringRest?_cons (by simpa using hq),if_pos rfl]
      rfl
    | @plain r body hs hr _ ih =>
      rw [List.cons_append,stringRest?_cons (by simpa using hs),if_neg hr,ih]
      rfl
    | @escape s body hs _ ih =>
      rw [List.cons_append,List.cons_append,stringRest?.eq_def]
      simp [hs,ih]

/-- The runes of a text are enclosed if its bytes are: a backslash escapes the first byte of a rune,
and the bytes behind it are neither quotes nor backslashes. -/
theorem enclosed_runes {q : Char} (hq : q.toNat < 0x80) {t : Text} :
    Enclosed (.char '\\') (.char q) (· ≠ .char '\n') t.runes ↔
      Enclosed (Text.ascii '\\') (Text.ascii q) (· ≠ Text.ascii '\n') t := by
  have hhigh : ∀ x : UInt8, 0x80 ≤ x.toNat → x ≠ Text.ascii '\\' ∧ x ≠ Text.ascii q :=
    fun x hx => ⟨Text.ne_ascii_of_le hx (by decide),Text.ne_ascii_of_le hx hq⟩
  induction hn : t.length using Nat.strong_induction_on generalizing t with
  | _ n ih =>
    cases t with
    | nil => exact iff_of_true .nil .nil
    | cons b t =>
      by_cases hb : b = Text.ascii '\\'
      · -- the byte behind the backslash is escaped, the other bytes of its rune are plain
        subst hb
        rw [Text.runes_ascii (by decide)]
        cases t with
        | nil => exact iff_of_false Enclosed.not_slash Enclosed.not_slash
        | cons x t =>
          obtain ⟨w,more,rfl,hr,hw,hfirst⟩ := Text.runes_cons_split x t
          have hmore := ih more.length (by simp [← hn]; omega) (t := more) rfl
          rw [hr,Enclosed.escape_iff,Enclosed.escape_iff,
            Enclosed.append_plain_iff fun y hy => hhigh y (hw y hy)]
          exact and_congr (not_congr (hfirst '\n' (by decide))) hmore
      · obtain ⟨w,more,rfl,hr,hw,hfirst⟩ := Text.runes_cons_split b t
        have hmore := ih more.length (by simp [← hn]) (t := more) rfl
        rw [hr,Enclosed.plain_iff (mt (hfirst '\\' (by decide)).mp hb),Enclosed.plain_iff hb,
          Enclosed.append_plain_iff fun y hy => hhigh y (hw y hy)]
        exact and_congr (not_congr (hfirst q hq)) hmore

/-- A text between two quotes. -/
def quoteWith (q : UInt8) (n : Text) : Text := q::(n ++ [q])

lemma isQuote_iff {q : UInt8} :
    Text.isQuote q = true ↔ ∃ c : Char, q = Text.ascii c ∧ (c = '"' ∨ c = '\'') := by
  simp only [Text.isQuote,Bool.or_eq_true,beq_iff_eq]
  refine ⟨?_,?_⟩
  · rintro (rfl | rfl)
    · exact ⟨'"',rfl,Or.inl rfl⟩
    · exact ⟨'\'',rfl,Or.inr rfl⟩
  · rintro ⟨c,rfl,rfl | rfl⟩
    · exact Or.inl rfl
    · exact Or.inr rfl

lemma quoteWith_inj {q p : UInt8} {n m : Text} : quoteWith q n = quoteWith p m ↔ q = p ∧ n = m := by
  constructor
  · intro h
    obtain ⟨rfl,h⟩ := List.cons.inj h
    exact ⟨rfl,List.append_cancel_right h⟩
  · rintro ⟨rfl,rfl⟩
    rfl

lemma toNat_lt_of_isQuote {c : Char} (hc : c = '"' ∨ c = '\'') : c.toNat < 0x80 := by
  rcases hc with rfl | rfl <;> decide

lemma ne_slash_of_isQuote {q : UInt8} (hq : Text.isQuote q = true) : q ≠ Text.ascii '\\' := by
  rintro rfl
  revert hq
  decide

lemma rune_ne_slash {c : Char} (hc : c = '"' ∨ c = '\'') : Rune.char c ≠ .char '\\' := by
  rcases hc with rfl | rfl <;> decide

lemma runes_quoteWith {c : Char} (hc : c.toNat < 0x80) (n : Text) :
    (quoteWith (Text.ascii c) n).runes = .char c::(n.runes ++ [.char c]) := by
  have hquote : ∀ b ∈ ([Text.ascii c] : Text).head?, b.toNat < 0x80 := by
    rintro b ⟨⟩
    rwa [Text.toNat_ascii hc]
  rw [quoteWith,Text.runes_ascii hc,Text.runes_plain hquote,Text.runes_ascii hc]
  rfl

lemma runes_quoteWith_append {c : Char} (hc : c.toNat < 0x80) (n rest : Text) :
    (quoteWith (Text.ascii c) n ++ rest).runes =
      (quoteWith (Text.ascii c) n).runes ++ rest.runes := by
  have hcons : quoteWith (Text.ascii c) n ++ rest =
      Text.ascii c::(n ++ Text.ascii c::rest) := by simp [quoteWith]
  have hquote : ∀ b ∈ (Text.ascii c::rest).head?, b.toNat < 0x80 := by
    rintro b ⟨⟩
    rwa [Text.toNat_ascii hc]
  rw [hcons,Text.runes_ascii hc,Text.runes_plain hquote,Text.runes_ascii hc,runes_quoteWith hc]
  simp

/-- The string lexeme at the front of a text. -/
def stringLexeme? (t : Text) : Option Text :=
  (stringLength? t.runes).map fun n => Text.ofRunes (t.runes.take n)

lemma stringLexeme?_of_runes {t : Text} {l rest : List Rune} (ht : t.runes = l ++ rest)
    (hl : Fits .string l) : stringLexeme? t = some (Text.ofRunes l) := by
  obtain ⟨r,body,rfl,hr,hend⟩ := hl
  have hlength : stringLength? t.runes = some (r::body).length := by
    rw [ht,List.cons_append,stringLength?,stringRest?_append hend]
    rcases hr with rfl | rfl <;> simp [Rune.isAscii]
  rw [stringLexeme?,hlength,Option.map_some,ht,List.take_left]

/-- A text in quotes is a string lexeme if nothing in it cuts it short. -/
theorem fits_quoteWith {q : UInt8} (hq : Text.isQuote q = true) {n : Text}
    (hn : Enclosed (Text.ascii '\\') q (· ≠ Text.ascii '\n') n) :
    Fits .string (quoteWith q n).runes := by
  obtain ⟨c,rfl,hc⟩ := isQuote_iff.mp hq
  have hlt := toNat_lt_of_isQuote hc
  have hend := (stringRest?_eq_some_iff (rune_ne_slash hc)).mpr
    ⟨n.runes,[],rfl,(enclosed_runes hlt).mpr hn,rfl⟩
  rw [runes_quoteWith hlt]
  refine ⟨_,_,rfl,?_,by simpa using hend⟩
  rcases hc with rfl | rfl
  · exact Or.inl rfl
  · exact Or.inr rfl

lemma stringLexeme?_quoteWith {q : UInt8} (hq : Text.isQuote q = true) {body : Text}
    (hb : Enclosed (Text.ascii '\\') q (· ≠ Text.ascii '\n') body) (rest : Text) :
    stringLexeme? (quoteWith q body ++ rest) = some (quoteWith q body) := by
  have hfits := fits_quoteWith hq hb
  obtain ⟨c,rfl,hc⟩ := isQuote_iff.mp hq
  have hruns := runes_quoteWith_append (toNat_lt_of_isQuote hc) body rest
  rw [stringLexeme?_of_runes hruns hfits,Text.ofRunes_runes]

/-- Where a literal is found among runes there are two quotes among the bytes. -/
lemma exists_quoteWith {t : Text} {n : ℕ} (h : stringLength? t.runes = some n) :
    ∃ q body rest, Text.isQuote q = true ∧ t = quoteWith q body ++ rest ∧
      Enclosed (Text.ascii '\\') q (· ≠ Text.ascii '\n') body := by
  cases t with
  | nil => simp [stringLength?] at h
  | cons b t =>
    obtain ⟨-,more,-,hr,-,hfirst⟩ := Text.runes_cons_split b t
    rw [hr,stringLength?,Option.ite_none_right_eq_some,Bool.or_eq_true,Rune.isAscii_iff,
      Rune.isAscii_iff,Option.map_eq_some_iff] at h
    obtain ⟨hquote,m,hm,-⟩ := h
    obtain ⟨c,hc,hrc⟩ : ∃ c : Char, (c = '"' ∨ c = '\'') ∧ Rune.first b t = .char c := by
      rcases hquote with h | h
      · exact ⟨'"',Or.inl rfl,h⟩
      · exact ⟨'\'',Or.inr rfl,h⟩
    have hlt := toNat_lt_of_isQuote hc
    obtain rfl := (hfirst c hlt).mp hrc
    rw [hrc] at hm
    obtain ⟨inner,after,hsplit,hinner,-⟩ := (stringRest?_eq_some_iff (rune_ne_slash hc)).mp hm
    rw [Text.runes_ascii hlt,List.cons.injEq] at hr
    obtain ⟨body,rest,rfl,rfl,-⟩ := Text.runes_split_ascii hlt (hr.2.trans hsplit)
    exact ⟨_,body,rest,isQuote_iff.mpr ⟨c,rfl,hc⟩,by simp [quoteWith],(enclosed_runes hlt).mp hinner⟩

/-- A string lexeme is at the front of a text if a quote is, and the same quote stands behind
something that it does not cut short. -/
theorem stringLexeme?_eq_some_iff {t w : Text} : stringLexeme? t = some w ↔
    ∃ q body rest, Text.isQuote q = true ∧ w = quoteWith q body ∧ t = w ++ rest ∧
      Enclosed (Text.ascii '\\') q (· ≠ Text.ascii '\n') body := by
  constructor
  · intro h
    obtain ⟨n,hn,-⟩ := Option.map_eq_some_iff.mp h
    obtain ⟨q,body,rest,hq,rfl,hb⟩ := exists_quoteWith hn
    have hw := Option.some.inj (h.symm.trans (stringLexeme?_quoteWith hq hb rest))
    exact ⟨q,body,rest,hq,hw,by rw [hw],hb⟩
  · rintro ⟨q,body,rest,hq,rfl,rfl,hb⟩
    exact stringLexeme?_quoteWith hq hb rest

/-- String lexemes are the texts in quotes that nothing cuts short. -/
theorem fits_string_iff {t : Text} : Fits .string t.runes ↔ ∃ q body, Text.isQuote q = true ∧
    t = quoteWith q body ∧ Enclosed (Text.ascii '\\') q (· ≠ Text.ascii '\n') body := by
  constructor
  · intro h
    have hwhole := stringLexeme?_of_runes (List.append_nil _).symm h
    rw [Text.ofRunes_runes] at hwhole
    obtain ⟨q,body,rest,hq,ht,-,hb⟩ := stringLexeme?_eq_some_iff.mp hwhole
    exact ⟨q,body,hq,ht,hb⟩
  · rintro ⟨q,body,hq,rfl,hb⟩
    exact fits_quoteWith hq hb

end CellScript.Script
