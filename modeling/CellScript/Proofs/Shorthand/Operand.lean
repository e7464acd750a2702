import Mathlib
import CellScript.Proofs.Shorthand.Context
import CellScript.Proofs.Shorthand.Field
import CellScript.Proofs.Shorthand.Filter

/-! Right-hand sides of assignments. Such a text is an expression once its accessors are read in
place, and the code that it is expanded to has the same lexemes. -/
namespace CellScript.Shorthand

open Script (Formula Lexeme lex? Shape Laid Adjacent Spot Bracketless)

variable {quoting : Bool}

def Ascii (t : Text) : Prop := ∀ b ∈ t, b.toNat < 0x80

lemma Ascii.append {t u : Text} (ht : Ascii t) (hu : Ascii u) : Ascii (t ++ u) := by
  intro b hb
  rcases List.mem_append.mp hb with hb | hb
  · exact ht b hb
  · exact hu b hb

lemma ascii_autoQuote {t : Text} (ht : Ascii t) : Ascii (autoQuote t) := by
  have hquote : Ascii (Text.ofString "\"") := by
    unfold Ascii
    decide +kernel
  unfold autoQuote
  split
  · exact ht
  · exact (hquote.append ht).append hquote

lemma ascii_cellText (c : Cast) {ref : Text} (h : Ascii ref) :
    Ascii (Script.cellText c.viewName ref) := by
  have hwords : ∀ c : Cast, ∀ w ∈ (Script.viewWords c.viewName).flatten, w.toNat < 0x80 := by
    intro c
    cases c <;> decide +kernel
  have hmark : ∀ w ∈ [Text.ofString "row",Text.ofString "[",Text.ofString "]"],
      ∀ b ∈ w, b.toNat < 0x80 := by decide +kernel
  exact Ascii.append (hmark _ (by simp)) ((show Ascii _ from hwords c).append
    (Ascii.append (hmark _ (by simp)) (h.append (hmark _ (by simp)))))

def Token.readText (quoting : Bool) (t : Token) : Text := (t.reading quoting).toOption.getD t.lexeme

/-- A token that is read or passed on. -/
structure Token.Readable (quoting : Bool) (t : Token) : Prop where
  kind : t.kind = .accessor ∨ t.kind = .ambiguous ∨ t.kind = .passthrough
  reading : ∃ w, t.reading quoting = .ok w

lemma Token.Readable.cases {t : Token} (h : t.Readable quoting) :
    (t.kind = .passthrough ∧ t.readText quoting = t.lexeme) ∨
      (t.kind = .accessor ∨ t.kind = .ambiguous) ∧
        ∃ f, t.field quoting = .ok f ∧ t.readText quoting = f.read := by
  obtain ⟨k,lexeme,pos⟩ := t
  obtain ⟨hkind,w,hw⟩ := h
  rcases hkind with rfl | rfl | rfl
  · right
    simp only [Token.reading] at hw
    cases hf : Token.field quoting ⟨.accessor,lexeme,pos⟩ with
    | error e => simp [hf,bind,Except.bind] at hw
    | ok f => exact ⟨Or.inl rfl,f,rfl,by simp [Token.readText,Token.reading,hf]; rfl⟩
  · right
    simp only [Token.reading] at hw
    cases hf : Token.field quoting ⟨.ambiguous,lexeme,pos⟩ with
    | error e => simp [hf,bind,Except.bind] at hw
    | ok f => exact ⟨Or.inr rfl,f,rfl,by simp [Token.readText,Token.reading,hf]; rfl⟩
  · left
    exact ⟨rfl,by simp [Token.readText,Token.reading,Except.toOption]⟩

lemma Token.Readable.ascii {t : Token} (h : t.Readable quoting) (ht : Ascii t.lexeme) :
    Ascii (t.readText quoting) := by
  rcases h.cases with ⟨-,hr⟩ | ⟨-,f,hf,hr⟩
  · rwa [hr]
  · rw [hr,Field.read_eq]
    refine ascii_cellText f.cast ?_
    obtain ⟨body,hs,href⟩ := Token.field_eq_ok hf
    have hbody : Ascii body := fun b hb => ht b ((Token.split_eq_ok hs).1 hb)
    rw [href]
    split
    · exact ascii_autoQuote hbody
    · exact hbody

lemma Token.Readable.shift {t : Token} (h : t.Readable quoting) (n : ℕ) :
    (t.shift n).Readable quoting ∧ (t.shift n).readText quoting = t.readText quoting := by
  rcases h.cases with ⟨hk,hr⟩ | ⟨hk,f,hf,hr⟩
  · have hreading : (t.shift n).reading quoting = .ok t.lexeme :=
      Token.reading_of_not_isAccessor quoting (by rw [Token.shift,hk]; rfl)
    refine ⟨⟨h.kind,_,hreading⟩,?_⟩
    rw [hr,Token.readText,hreading]
    rfl
  · have hreading : (t.shift n).reading quoting = .ok f.read := by
      rw [Token.reading,show (t.shift n).kind = t.kind from rfl,Token.shift,Token.field_at hf (t.pos+n)]
      rcases hk with hk | hk <;> rw [hk] <;> rfl
    refine ⟨⟨h.kind,_,hreading⟩,?_⟩
    rw [hr,Token.readText,hreading]
    rfl

lemma Token.Readable.stands {t : Token} (h : t.Readable quoting)
    (hc : t.kind.isAccessor = true → Spot.code.after (t.readText quoting) = .code) :
    Stands True (Token.readText quoting) t := by
  rcases h.cases with ⟨hk,hr⟩ | ⟨hk,f,hf,hr⟩
  · have hno : t.kind.isAccessor ≠ true := by simp [hk,Kind.isAccessor]
    exact ⟨fun _ => hr,fun ht => absurd ht hno,hc,fun ht => absurd ht hno,fun ht => absurd ht hno⟩
  · have hacc : t.kind.isAccessor = true := by rcases hk with hk | hk <;> rw [hk] <;> rfl
    obtain ⟨u,hu⟩ := f.read_ends
    rw [hu] at hr
    refine ⟨fun ht => by simp [ht] at hacc,fun _ => trivial,hc,fun _ => ?_,fun _ => ?_⟩
    · exact ⟨Text.ascii 'r',by rw [hr]; rfl,by decide⟩
    · refine ⟨Text.ascii ']',?_,by decide,by decide⟩
      rw [hr,← List.cons_append,List.getLast?_concat]
      rfl

/-- Where no literal holds a closing bracket, every accessor that is read closes its own literals. -/
lemma Cut.stands_readText {pos : ℕ} {before : Option UInt8} {t : Text} {ts : List Token}
    (h : Cut pos before t ts) (hr : ∀ x ∈ ts, x.Readable quoting) {pre : Text} {ls : List Shape}
    (hpre : Spot.code.after pre = .code)
    (hl : Laid ls (pre ++ inPlaceFrom (Token.readText quoting) pos t ts))
    (hb : ∀ l ∈ ls, l.kind = .string → Text.ascii ']' ∉ l.text) :
    ∀ x ∈ ts, Stands True (Token.readText quoting) x := by
  induction h generalizing pre with
  | nil => simp
  | @blank pos before b t ts hblank hc ih =>
    rw [inPlaceFrom_blank hc.le_pos,List.append_cons] at hl
    refine ih hr ?_ hl
    rw [Spot.after_append,hpre]
    exact Spot.step_code (Script.not_isQuote_of_isBlank hblank)
  | @token pos before k w t ts hblank hp hc ih =>
    rw [inPlaceFrom_token] at hl
    have hx := hr ⟨k,w,pos⟩ (by simp)
    have hstands : Stands True (Token.readText quoting) ⟨k,w,pos⟩ := by
      refine hx.stands fun hacc => ?_
      rcases hx.cases with ⟨hk,-⟩ | ⟨-,f,-,hread⟩
      · rw [show k = .passthrough from hk] at hacc
        simp [Kind.isAccessor] at hacc
      · -- the bracket that ends the accessor is not in a literal, so it stands among code
        obtain ⟨u,hu⟩ := f.read_ends
        have hcode : Spot.code.after (pre ++ Text.ascii 'r'::u) = .code := by
          by_contra hne
          have htext : pre ++ (Token.readText quoting ⟨k,w,pos⟩ ++
              inPlaceFrom (Token.readText quoting) (pos+w.length) t ts) =
              pre ++ Text.ascii 'r'::u ++ Text.ascii ']'::
                inPlaceFrom (Token.readText quoting) (pos+w.length) t ts := by
            rw [hread,hu]
            simp
          obtain ⟨l,hmem,hkind,hbracket⟩ := hl.mem_string htext hne
          exact hb l hmem hkind hbracket
        rw [Spot.after_append,hpre] at hcode
        rw [hread,hu,← List.cons_append,Spot.after_append,hcode]
        rfl
    intro x hmem
    rcases List.mem_cons.mp hmem with rfl | hmem
    · exact hstands
    · by_cases ht : t = []
      · subst ht
        rw [show ts = [] from hc.scanFrom_eq.symm] at hmem
        simp at hmem
      · refine ih (fun y hy => hr y (by simp [hy])) ?_ (by rwa [List.append_assoc]) x hmem
        rw [Spot.after_append,hpre]
        exact (hp.written hblank hstands).after ht

lemma Cut.mem_inPlaceFrom {f : Token → Text} {pos : ℕ} {before : Option UInt8} {t : Text}
    {ts : List Token} (h : Cut pos before t ts) {b : UInt8} (hb : b ∈ inPlaceFrom f pos t ts) :
    b ∈ t ∨ ∃ x ∈ ts, b ∈ f x := by
  induction h with
  | nil => simp [inPlaceFrom] at hb
  | @blank pos before c t ts _ hc ih =>
    rw [inPlaceFrom_blank hc.le_pos] at hb
    rcases List.mem_cons.mp hb with rfl | hb
    · simp
    · rcases ih hb with h | h
      · exact Or.inl (by simp [h])
      · exact Or.inr h
  | @token pos before k w t ts _ _ _ ih =>
    rw [inPlaceFrom_token] at hb
    rcases List.mem_append.mp hb with hb | hb
    · exact Or.inr ⟨_,by simp,hb⟩
    · rcases ih hb with h | ⟨x,hx,h⟩
      · exact Or.inl (by simp [h])
      · exact Or.inr ⟨x,by simp [hx],h⟩

lemma Cut.lexeme_subset {pos : ℕ} {before : Option UInt8} {t : Text} {ts : List Token}
    (h : Cut pos before t ts) : ∀ x ∈ ts, x.lexeme ⊆ t := by
  induction h with
  | nil => simp
  | blank _ _ ih => exact fun x hx b hb => List.mem_cons_of_mem _ (ih x hx hb)
  | @token pos before k w t ts _ _ _ ih =>
    intro x hx b hb
    rcases List.mem_cons.mp hx with rfl | hx
    · exact List.mem_append_left _ hb
    · exact List.mem_append_right _ (ih x hx hb)

lemma sticks_of_continuesName {c : Char} (hc : c.toNat < 0x80)
    (h : Script.continuesName (.char c) = true) : sticks (Text.ascii c) = true := by
  have hn := Text.toNat_ascii hc
  have hcases := (Script.continuesName_of_lt hc).mp h
  simp only [sticks,Text.isWord,Text.isDigit,Text.isLower,Text.isUpper,Bool.or_eq_true,
    Bool.and_eq_true,decide_eq_true_eq,UInt8.le_iff_toNat_le,beq_iff_eq,hn]
  rcases hcases with rfl | hcases | hcases | hcases
  · exact Or.inl (Or.inl (Or.inl (Or.inl rfl)))
  · exact Or.inl (Or.inl (Or.inr hcases))
  · exact Or.inl (Or.inl (Or.inl (Or.inr hcases)))
  · exact Or.inl (Or.inr hcases)

/-- The bytes of ASCII names stick. -/
lemma sticks_of_ascii_name {s : Shape} (hs : s.Fits) (hk : s.kind = .name) (ha : Ascii s.text) :
    ∀ b ∈ s.text, sticks b = true := by
  intro b hb
  have hlt := ha b hb
  have hc : (Char.ofNat b.toNat).toNat < 0x80 := by rwa [Rune.toNat_ofNat hlt]
  have hr := Text.mem_runes_of_mem hc (by rwa [Text.ascii_ofNat hlt])
  rw [Shape.Fits,hk] at hs
  obtain ⟨r,rest,hrs,hstart,hrest⟩ := hs
  rw [← Text.ascii_ofNat hlt]
  refine sticks_of_continuesName hc ?_
  rw [hrs] at hr
  rcases List.mem_cons.mp hr with h | h
  · rw [h]
    exact Script.continuesName_of_startsName hstart
  · exact hrest _ h

/-- Names of ASCII letters never run together. -/
lemma not_fuses_of_ascii {l m : Shape} (hl : l.Fits) (hm : m.Fits) (hla : Ascii l.text)
    (hma : Ascii m.text) : ¬ Fuses l m := by
  rintro ⟨hlk,hmk,hs⟩
  have hlast := List.getLast?_eq_some_getLast (Script.Shape.text_ne_nil hl)
  have hhead := List.head?_eq_some_head (Script.Shape.text_ne_nil hm)
  rw [hlast,hhead,sticky,sticks_of_ascii_name hl hlk hla _ (List.getLast_mem _),
    sticks_of_ascii_name hm hmk hma _ (List.head_mem _)] at hs
  simp at hs

/-- A text of ASCII bytes that is an expression once its accessors are read in place. It has no
separators, assignments or new columns, and no closing bracket inside a literal. -/
structure Operand (quoting : Bool) (value : Text) (f : Formula) : Prop where
  ascii : Ascii value
  readable : ∀ t ∈ scan value, t.Readable quoting
  compiled : Formula.compile (inPlace (Token.readText quoting) value) = .ok f
  brackets : Bracketless (inPlace (Token.readText quoting) value)

def Token.isReadable (quoting : Bool) (t : Token) : Bool :=
  (t.kind == .accessor || t.kind == .ambiguous || t.kind == .passthrough) &&
    (t.reading quoting).toOption.isSome

def isOperand (quoting : Bool) (value : Text) : Bool :=
  value.all (fun b => b.toNat < 0x80) && (scan value).all (Token.isReadable quoting) &&
    (Formula.compile (inPlace (Token.readText quoting) value)).toOption.isSome &&
    decide (Bracketless (inPlace (Token.readText quoting) value))

lemma Token.isReadable_iff {t : Token} : t.isReadable quoting = true ↔ t.Readable quoting := by
  simp only [Token.isReadable,Bool.and_eq_true,Bool.or_eq_true,beq_iff_eq,or_assoc]
  refine ⟨fun ⟨hk,hr⟩ => ⟨hk,exists_ok hr⟩,fun ⟨hk,w,hr⟩ => ⟨hk,by rw [hr]; rfl⟩⟩

theorem isOperand_iff {value : Text} :
    isOperand quoting value = true ↔ ∃ f, Operand quoting value f := by
  simp only [isOperand,Bool.and_eq_true,List.all_eq_true,decide_eq_true_eq,Token.isReadable_iff,
    and_assoc]
  constructor
  · rintro ⟨ha,hr,hc,hb⟩
    obtain ⟨f,hf⟩ := exists_ok hc
    exact ⟨f,ha,hr,hf,hb⟩
  · rintro ⟨f,h⟩
    exact ⟨h.ascii,h.readable,by rw [h.compiled]; rfl,h.brackets⟩

namespace Operand

variable {value : Text} {f : Formula}

lemma exists_lexemes (h : Operand quoting value f) :
    ∃ ls, lex? (inPlace (Token.readText quoting) value) = some ls := by
  obtain ⟨-,-,ls,hs,-⟩ := Formula.compile_eq_ok_iff.mp h.compiled
  exact ⟨ls,hs⟩

variable {ls : List Lexeme}

lemma spelled (h : Operand quoting value f)
    (hs : lex? (inPlace (Token.readText quoting) value) = some ls) : f.expr.Spelled ls :=
  Script.spelled_of_compile h.compiled hs

lemma laid (h : Operand quoting value f)
    (hs : lex? (inPlace (Token.readText quoting) value) = some ls) :
    Laid (ls.map Lexeme.shape) (inPlace (Token.readText quoting) value) := (h.spelled hs).laid hs

lemma stands (h : Operand quoting value f) :
    ∀ t ∈ scan value, Stands True (Token.readText quoting) t := by
  obtain ⟨ls,hs⟩ := h.exists_lexemes
  have hlaid : Laid (ls.map Lexeme.shape) ([] ++ inPlace (Token.readText quoting) value) := h.laid hs
  refine (cut_scan value).stands_readText h.readable rfl hlaid ?_
  intro l hl hk
  obtain ⟨m,hm,rfl⟩ := List.mem_map.mp hl
  exact h.brackets ls hs m hm hk

lemma ascii_inPlace (h : Operand quoting value f) :
    Ascii (inPlace (Token.readText quoting) value) := by
  intro b hb
  rcases (cut_scan value).mem_inPlaceFrom hb with hb | ⟨t,ht,hb⟩
  · exact h.ascii b hb
  · refine (h.readable t ht).ascii ?_ b hb
    exact fun c hc => h.ascii c ((cut_scan value).lexeme_subset t ht hc)

/-- The fragments of an operand behind a byte that does not stick have the lexemes of its reading. -/
theorem laid_glueFrom (h : Operand quoting value f)
    (hs : lex? (inPlace (Token.readText quoting) value) = some ls) {a : UInt8}
    (ha : sticks a = false) : Laid (ls.map Lexeme.shape)
      (glueFrom (some a) ((scan value).map (Token.readText quoting))) := by
  have hlaid := h.laid hs
  have hchain : (ls.map Lexeme.shape).IsChain Adjacent := by
    rw [List.isChain_map]
    exact (h.spelled hs).chained.chain
  have hfree : (ls.map Lexeme.shape).IsChain fun l m => ¬ Fuses l m := by
    have hascii : ∀ l ∈ ls.map Lexeme.shape, Ascii l.text :=
      fun l hl b hb => h.ascii_inPlace b (hlaid.subset l hl hb)
    refine (List.pairwise_of_forall_mem_list fun l hl m hm => ?_).isChain
    exact not_fuses_of_ascii (hlaid.fits l hl) (hlaid.fits m hm) (hascii l hl) (hascii m hm)
  have hguard : Guarded (some a) false value := by
    intro _ b hb hsb
    rw [Option.mem_def,Option.some.injEq] at hb
    rw [← hb,ha] at hsb
    simp at hsb
  have hr := (cut_scan value).respaced h.stands hguard
  have hcode := hr.laid hlaid hchain fun _ => hfree
  rwa [fuse_eq_self hfree] at hcode

lemma inPlaceFrom_shift {pos : ℕ} {before : Option UInt8} {t : Text} {ts : List Token}
    (h : Cut pos before t ts) (hr : ∀ x ∈ ts, x.Readable quoting) (n : ℕ) :
    inPlaceFrom (Token.readText quoting) (pos+n) t (ts.map (Token.shift n)) =
      inPlaceFrom (Token.readText quoting) pos t ts := by
  induction h with
  | nil => rfl
  | @blank pos before b t ts hb hc ih =>
    have hlater := (hc.shift n).le_pos
    rw [show pos+1+n = pos+n+1 by omega] at hlater ih
    rw [inPlaceFrom_blank hlater,inPlaceFrom_blank hc.le_pos,ih hr]
  | @token pos before k w t ts hb hp hc ih =>
    rw [List.map_cons,inPlaceFrom_token]
    rw [show Token.shift n ⟨k,w,pos⟩ = ⟨k,w,pos+n⟩ from rfl,inPlaceFrom_token]
    have htext := ((hr ⟨k,w,pos⟩ (by simp)).shift n).2
    rw [show pos+w.length+n = pos+n+w.length by omega] at ih
    rw [ih fun x hx => hr x (by simp [hx])]
    rw [show (⟨k,w,pos+n⟩ : Token) = Token.shift n ⟨k,w,pos⟩ from rfl,htext]

/-- An operand in front of a separator is cut as it is on its own. -/
theorem cut (h : Operand quoting value f) {pos : ℕ} {before : Option UInt8} {ext : Text}
    {us : List Token} (ho : opensAfter before = true) (he : Ends ext)
    (hu : Cut (pos+value.length) (value.getLast?.or before) ext us) :
    Cut pos before (value ++ ext) ((scan value).map (Token.shift pos) ++ us) := by
  obtain ⟨ls,hs⟩ := h.exists_lexemes
  have hcut : Cut (0+pos) before value ((scan value).map (Token.shift pos)) :=
    ((cut_scan value).shift pos).congr_before ho
  have hstands : ∀ x ∈ (scan value).map (Token.shift pos),
      Stands True (Token.readText quoting) x := by
    intro x hx
    obtain ⟨t,ht,rfl⟩ := List.mem_map.mp hx
    obtain ⟨hr,htext⟩ := (h.readable t ht).shift pos
    refine hr.stands fun hk => ?_
    rw [htext]
    exact (h.stands t ht).closed hk
  have hbalanced : Balanced (inPlaceFrom (Token.readText quoting) (0+pos) value
      ((scan value).map (Token.shift pos))) := by
    rw [inPlaceFrom_shift (cut_scan value) h.readable pos]
    exact balanced_of_laid (h.spelled hs) (h.laid hs)
  rw [Nat.zero_add] at hcut hbalanced
  exact hcut.append hstands hbalanced he hu

/-- An operand does not start with an equals sign. -/
lemma head_ne (h : Operand quoting value f) : value.head? ≠ some (Text.ascii '=') := by
  intro hhead
  obtain ⟨ls,hs⟩ := h.exists_lexemes
  have hplace : (inPlace (Token.readText quoting) value).head? = some (Text.ascii '=') := by
    have hcut := cut_scan value
    have hstands := h.stands
    rw [inPlace]
    generalize scan value = ts at hcut hstands
    cases hcut with
    | nil => simp at hhead
    | @blank _ _ b t _ hb =>
      rw [List.head?_cons,Option.some.injEq] at hhead
      rw [hhead] at hb
      exact absurd hb (by decide)
    | @token _ _ k w t ts hb hp hc =>
      rw [List.head?_append_of_ne_nil _ hp.ne_nil] at hhead
      have hkind : k.isAccessor = false := by
        cases hp with
        | @accessor c _ body _ ho hcast =>
          rw [List.head?_cons,Option.some.injEq] at hhead
          rw [hhead] at hcast
          exact absurd hcast (by decide)
        | operator ho =>
          obtain ⟨_,_,-,-,-,-,hno⟩ := operator?_eq_some ho
          exact hno
        | run => rfl
      rw [inPlaceFrom_token,(hstands _ (by simp)).same hkind,
        List.head?_append_of_ne_nil _ hp.ne_nil]
      exact hhead
  obtain ⟨l,hl,hopens⟩ := (h.spelled hs).chained.opens
  obtain ⟨ms,rfl⟩ := List.head?_eq_some_iff.mp hl
  exact (h.laid hs).head_ne_equals hopens hplace

end Operand

/-- A token that is read adds its reading, at the latest when the accessor is written. -/
lemma Draft.visit_readable (d : Draft) {t : Token} (h : t.Readable quoting) :
    ∃ e, d.visitStatement quoting t = .ok e ∧ e.flush = d.flush.write (t.readText quoting) := by
  obtain ⟨pending,atTarget,inGroup,fragments,newHeaders⟩ := d
  rcases h.cases with ⟨hk,hr⟩ | ⟨hk,f,hf,hr⟩
  · refine ⟨_,by rw [Draft.visitStatement,hk],?_⟩
    rw [hr]
    cases pending <;> rfl
  · refine ⟨{ Draft.flush ⟨pending,atTarget,inGroup,fragments,newHeaders⟩ with pending := some f },
      ?_,?_⟩
    · rw [Draft.visitStatement_accessor _ hk,hf]
      rfl
    · rw [hr]
      cases pending <;> rfl

/-- Tokens that are read add their readings. -/
lemma Draft.foldlM_readable (d : Draft) {ts : List Token} (h : ∀ t ∈ ts, t.Readable quoting) :
    ∃ e, ts.foldlM (Draft.visitStatement quoting) d = .ok e ∧ e.flush =
      { d.flush with fragments := d.flush.fragments ++ ts.map (Token.readText quoting) } := by
  induction ts generalizing d with
  | nil => exact ⟨d,rfl,by simp⟩
  | cons t ts ih =>
    obtain ⟨e,he,hflush⟩ := d.visit_readable (h t (by simp))
    obtain ⟨e',he',hflush'⟩ := ih e fun x hx => h x (by simp [hx])
    refine ⟨e',?_,?_⟩
    · rw [List.foldlM_cons,he]
      exact he'
    · rw [hflush',hflush]
      simp [Draft.write]

end CellScript.Shorthand
