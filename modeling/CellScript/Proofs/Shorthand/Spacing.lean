import Mathlib
import CellScript.Proofs.Script.Neighbours
import CellScript.Proofs.Script.Spot
import CellScript.Shorthand.Expansion

/-! Texts that differ in the blanks among their code. The lexemes stay the same, except that names
with nothing left between them become one. -/
namespace CellScript.Shorthand

open Script (Spot Shape Laid Blank Adjacent continuesName isGap)

def sticky : Option UInt8 → Option UInt8 → Bool
  | some a,some b => sticks a && sticks b
  | _,_ => false

/-- What is put in front of a fragment behind a byte. -/
def joint (last : Option UInt8) (w : Text) : Text :=
  if sticky last w.head? then [Text.ascii ' '] else []

def glueFrom : Option UInt8 → List Text → Text
  | _,[] => []
  | last,w::ws => joint last w ++ (w ++ glueFrom (w.getLast?.or last) ws)

lemma glue_eq (code w : Text) : glue code w = code ++ (joint code.getLast? w ++ w) := by
  unfold glue joint
  cases code.getLast? with
  | none => simp [sticky]
  | some a =>
    cases w.head? with
    | none => simp [sticky]
    | some b =>
      have hs : sticky (some a) (some b) = (sticks a && sticks b) := rfl
      rw [hs]
      dsimp only
      cases sticks a && sticks b <;> rfl

lemma foldl_glue (code : Text) (ws : List Text) :
    ws.foldl glue code = code ++ glueFrom code.getLast? ws := by
  induction ws generalizing code with
  | nil => simp [glueFrom]
  | cons w ws ih =>
    have hlast : (joint code.getLast? w ++ w).getLast?.or code.getLast? =
        w.getLast?.or code.getLast? := by
      cases w with
      | nil =>
        have hj : joint code.getLast? [] = [] := by
          cases code.getLast? <;> rfl
        rw [hj]
        rfl
      | cons b w =>
        rw [List.getLast?_append,List.getLast?_cons]
        rfl
    rw [List.foldl_cons,ih,glue_eq,List.getLast?_append,hlast,glueFrom]
    simp only [List.append_assoc]

theorem glueAll_eq (ws : List Text) : glueAll ws = glueFrom none ws := by
  rw [glueAll,foldl_glue,List.nil_append,List.getLast?_nil]

lemma joint_of_not_sticks {w : Text} (h : ∀ b ∈ w.head?, sticks b = false) (last : Option UInt8) :
    joint last w = [] := by
  rw [joint]
  cases last with
  | none => rfl
  | some a =>
    cases hw : w.head? with
    | none => rfl
    | some b => simp [sticky,h b hw]

/-- Behind a byte that does not stick, fragments are glued as they are on their own. -/
lemma glueFrom_of_not_sticks {b : UInt8} (h : sticks b = false) (ws : List Text) :
    glueFrom (some b) ws = glueFrom none ws := by
  induction ws with
  | nil => rfl
  | cons w ws ih =>
    have hjoint : joint (some b) w = joint none w := by
      rw [joint,joint]
      cases w.head? with
      | none => rfl
      | some c => simp [sticky,h]
    rw [glueFrom,glueFrom,hjoint]
    cases hw : w.getLast? with
    | none => simp only [Option.none_or,ih]
    | some c => rfl

/-- A text and the same text with other blanks among its code. The byte that was written last and
whether blanks were passed since decide where a blank is needed; a blank may be kept only where keep
allows it. -/
inductive Respaced (keep : Prop) : Option UInt8 → Bool → Spot → Text → Text → Prop
  | nil {last : Option UInt8} {gap : Bool} {s : Spot} : Respaced keep last gap s [] []
  | inside {last : Option UInt8} {gap : Bool} {s : Spot} {b : UInt8} {t u : Text} : s ≠ .code →
      Respaced keep (some b) false (s.step b) t u → Respaced keep last gap s (b::t) (b::u)
  | dropped {last : Option UInt8} {gap : Bool} {b : UInt8} {t u : Text} : Text.isBlank b = true →
      Respaced keep last true .code t u → Respaced keep last gap .code (b::t) u
  | kept {last : Option UInt8} {gap : Bool} {b : UInt8} {t u : Text} : keep →
      Text.isBlank b = true → Respaced keep none true .code t u →
      Respaced keep last gap .code (b::t) (b::u)
  | byte {last : Option UInt8} {gap : Bool} {b : UInt8} {t u : Text} : Text.isBlank b = false →
      (gap = true → sticky last (some b) = false) →
      Respaced keep (some b) false (Spot.code.step b) t u →
      Respaced keep last gap .code (b::t) (b::u)
  | spaced {last : Option UInt8} {gap : Bool} {b : UInt8} {t u : Text} : Text.isBlank b = false →
      sticky last (some b) = true → gap = true ∨ (∃ q ∈ last, Text.isQuote q = true) →
      Respaced keep (some b) false (Spot.code.step b) t u →
      Respaced keep last gap .code (b::t) (Text.ascii ' '::b::u)

section

variable {keep : Prop} {last : Option UInt8} {gap : Bool}

/-- Blanks between lexemes are dropped or kept. -/
lemma Respaced.passGap {g t u : Text} (hg : Blank g)
    (h : Respaced keep last gap .code (g ++ t) u) :
    ∃ sep last' u', u = sep ++ u' ∧ Blank sep ∧ (sep = [] → last' = last) ∧
      (sep ≠ [] → keep ∧ last' = none) ∧
      Respaced keep last' (gap || !g.isEmpty) .code t u' := by
  induction g generalizing last gap u with
  | nil => exact ⟨[],last,u,rfl,by simp [Blank],by simp,by simp,by simpa using h⟩
  | cons b g ih =>
    have hb : Text.isBlank b = true := hg b (by simp)
    have hg' : Blank g := fun c hc => hg c (by simp [hc])
    cases h with
    | inside hs => exact absurd rfl hs
    | dropped _ h =>
      obtain ⟨sep,last',u',rfl,hsep,h1,h2,h3⟩ := ih hg' h
      exact ⟨sep,last',u',rfl,hsep,h1,h2,by simpa using h3⟩
    | @kept _ _ _ _ u hk _ h =>
      obtain ⟨sep,last',u',rfl,hsep,h1,h2,h3⟩ := ih hg' h
      refine ⟨b::sep,last',u',rfl,?_,by simp,?_,by simpa using h3⟩
      · intro c hc
        rcases List.mem_cons.mp hc with rfl | hc
        · exact hb
        · exact hsep c hc
      · intro _
        by_cases hs : sep = []
        · exact ⟨hk,h1 hs⟩
        · exact h2 hs
    | byte hn => simp [hb] at hn
    | spaced hn => simp [hb] at hn

lemma Respaced.passByte {b : UInt8} {t u : Text} (hb : Text.isBlank b = false)
    (h : Respaced keep last gap .code (b::t) u) :
    ∃ sep u', u = sep ++ b::u' ∧ Blank sep ∧
      (sep = [] → gap = true → sticky last (some b) = false) ∧
      (sep ≠ [] → sticky last (some b) = true ∧
        (gap = true ∨ ∃ q ∈ last, Text.isQuote q = true)) ∧
      Respaced keep (some b) false (Spot.code.step b) t u' := by
  cases h with
  | inside hs => exact absurd rfl hs
  | dropped hn => simp [hb] at hn
  | kept _ hn => simp [hb] at hn
  | @byte _ _ _ _ u _ hg h => exact ⟨[],u,rfl,by simp [Blank],fun _ => hg,by simp,h⟩
  | @spaced _ _ _ _ u _ hs hg h =>
    exact ⟨[Text.ascii ' '],u,rfl,by simp [Blank,Text.isBlank],by simp,fun _ => ⟨hs,hg⟩,h⟩

/-- The bytes of a lexeme that is no string stay together. -/
lemma Respaced.passCode {w t u : Text}
    (hw : ∀ b ∈ w, Text.isBlank b = false ∧ Text.isQuote b = false)
    (hl : ∀ q ∈ last, Text.isQuote q = false) (h : Respaced keep last false .code (w ++ t) u) :
    ∃ u', u = w ++ u' ∧ Respaced keep (w.getLast?.or last) false .code t u' := by
  induction w generalizing last u with
  | nil => exact ⟨u,rfl,by simpa using h⟩
  | cons b w ih =>
    obtain ⟨hb,hq⟩ := hw b (by simp)
    obtain ⟨sep,u',rfl,-,-,hsep,h'⟩ := h.passByte hb
    have hnil : sep = [] := by
      by_contra hne
      rcases (hsep hne).2 with hf | ⟨q,hql,hqq⟩
      · simp at hf
      · rw [hl q hql] at hqq
        simp at hqq
    rw [Spot.step_code hq] at h'
    obtain ⟨v,rfl,hv⟩ := ih (fun c hc => hw c (by simp [hc])) (by simpa using hq) h'
    refine ⟨v,by simp [hnil],?_⟩
    rw [List.getLast?_cons]
    cases hx : w.getLast? <;> simpa [hx] using hv

/-- The bytes of a literal stay as they are. -/
lemma Respaced.passLiteral {s : Spot} {w t u : Text} (hw : s.Closes w)
    (h : Respaced keep last false s (w ++ t) u) :
    ∃ u', u = w ++ u' ∧ Respaced keep (w.getLast?.or last) false .code t u' := by
  induction w generalizing last s u with
  | nil =>
    have hs : s = .code := hw
    subst hs
    exact ⟨u,rfl,by simpa using h⟩
  | cons b w ih =>
    have hinner : ∃ v, u = b::v ∧ Respaced keep (some b) false (s.step b) (w ++ t) v := by
      cases h with
      | inside _ h => exact ⟨_,rfl,h⟩
      | dropped => exact absurd rfl hw.1
      | kept => exact absurd rfl hw.1
      | byte => exact absurd rfl hw.1
      | spaced => exact absurd rfl hw.1
    obtain ⟨v,rfl,hv⟩ := hinner
    obtain ⟨u',rfl,hu'⟩ := ih hw.2 hv
    refine ⟨u',rfl,?_⟩
    rw [List.getLast?_cons]
    cases hx : w.getLast? <;> simpa [hx] using hu'

/-- A lexeme stays as it is. The blanks in front of it go unless they are needed. -/
theorem Respaced.passLexeme {l : Shape} {g t u : Text} (hl : l.Fits) (hg : Blank g)
    (h : Respaced keep last gap .code (g ++ (l.text ++ t)) u) :
    ∃ sep u', u = sep ++ (l.text ++ u') ∧ Blank sep ∧
      (sep = [] → gap = true ∨ g ≠ [] → sticky last l.text.head? = false) ∧
      (sep ≠ [] → keep ∨ sticky last l.text.head? = true) ∧
      Respaced keep l.text.getLast? false .code t u' := by
  obtain ⟨sep,last',v,rfl,hsep,hsame,hkept,hv⟩ := h.passGap hg
  obtain ⟨b,w,hw⟩ := List.exists_cons_of_ne_nil (Shape.text_ne_nil hl)
  rw [hw] at hv ⊢
  have hb : Text.isBlank b = false := hl.head_not_blank b (by rw [hw]; rfl)
  obtain ⟨sep',v',rfl,hsep',hbare,hspaced,hv'⟩ := hv.passByte hb
  have hrest : ∃ u', v' = w ++ u' ∧ Respaced keep (b::w).getLast? false .code t u' := by
    have hlast : (b::w).getLast? = w.getLast?.or (some b) := by
      rw [List.getLast?_cons]
      cases w.getLast? <;> rfl
    rw [hlast]
    by_cases hk : l.kind = .string
    · obtain ⟨q,body,ht,hq,hc⟩ := hl.closes hk
      rw [hw,List.cons.injEq] at ht
      obtain ⟨rfl,rfl⟩ := ht
      rw [Spot.step,if_pos hq] at hv'
      exact hv'.passLiteral hc
    · have hplain : ∀ c ∈ b::w, Text.isBlank c = false ∧ Text.isQuote c = false := by
        rw [← hw]
        exact hl.plain hk
      have hq := (hplain b (by simp)).2
      rw [Spot.step_code hq] at hv'
      exact hv'.passCode (fun c hc => hplain c (by simp [hc])) (by simpa using hq)
  obtain ⟨u',rfl,hu'⟩ := hrest
  refine ⟨sep ++ sep',u',by simp,?_,?_,?_,hu'⟩
  · intro c hc
    rcases List.mem_append.mp hc with hc | hc
    · exact hsep c hc
    · exact hsep' c hc
  · intro hnil hgap
    obtain ⟨h1,h2⟩ := List.append_eq_nil_iff.mp hnil
    rw [hsame h1] at hbare
    refine hbare h2 ?_
    rcases hgap with rfl | hne
    · rfl
    · simp [hne]
  · intro hne
    by_cases h1 : sep = []
    · right
      rw [hsame h1] at hspaced
      exact (hspaced (by simpa [h1] using hne)).1
    · exact Or.inl (hkept h1).1

/-- Two names that run together without a blank: a byte outside ASCII is not taken for a part of a
word. -/
def Fuses (l m : Shape) : Prop :=
  l.kind = .name ∧ m.kind = .name ∧ sticky l.text.getLast? m.text.head? = false

instance (l m : Shape) : Decidable (Fuses l m) := inferInstanceAs (Decidable (_ ∧ _ ∧ _))

def attach (l : Shape) : List Shape → List Shape
  | [] => [l]
  | m::ms => if Fuses l m then ⟨.name,l.text ++ m.text⟩::ms else l::m::ms

/-- Lexemes with the names joined that run together. -/
def fuse (ls : List Shape) : List Shape := ls.foldr attach []

lemma fuse_cons (l : Shape) (ls : List Shape) : fuse (l::ls) = attach l (fuse ls) := rfl

structure SameStart (l m : Shape) : Prop where
  kind : l.kind = m.kind
  byte : l.text.head? = m.text.head?
  rune : l.text.runes.head? = m.text.runes.head?

lemma exists_fuse_cons (l : Shape) (ls : List Shape) (h : ∀ m ∈ l::ls, m.Fits) :
    ∃ m ms, fuse (l::ls) = m::ms ∧ SameStart m l ∧ m.Fits := by
  induction ls generalizing l with
  | nil => exact ⟨l,[],rfl,⟨rfl,rfl,rfl⟩,h l (by simp)⟩
  | cons k ks ih =>
    obtain ⟨m,ms,hm,hs,hf⟩ := ih k fun x hx => h x (by simp [hx])
    have hl : l.Fits := h l (by simp)
    rw [fuse_cons,hm,attach]
    split
    · next hfuse =>
      have hpay := Script.payload?_of_runes_head fun r hr => (Script.Fits.head hf r hr).2
      refine ⟨_,ms,rfl,⟨hfuse.1.symm,?_,?_⟩,?_⟩
      · exact List.head?_append_of_ne_nil _ (Shape.text_ne_nil hl)
      · exact Script.head?_runes_append (Shape.text_ne_nil hl) hpay
      · simp only [Shape.Fits] at hf hl ⊢
        rw [hfuse.1] at hl
        rw [hfuse.2.1] at hf
        obtain ⟨r,rest,hr,hstart,hrest⟩ := hl
        obtain ⟨r',rest',hr',hstart',hrest'⟩ := hf
        refine ⟨r,rest ++ r'::rest',?_,hstart,?_⟩
        · rw [Text.runes_append _ hpay,hr,hr']
          rfl
        · intro x hx
          rcases List.mem_append.mp hx with hx | hx
          · exact hrest x hx
          · rcases List.mem_cons.mp hx with rfl | hx
            · exact Script.continuesName_of_startsName hstart'
            · exact hrest' x hx
    · exact ⟨l,m::ms,rfl,⟨rfl,rfl,rfl⟩,hl⟩

lemma fuses_congr {l m m' : Shape} (h : SameStart m' m) : Fuses l m' ↔ Fuses l m := by
  rw [Fuses,Fuses,h.kind,h.byte]

lemma fuse_eq_self {ls : List Shape} (h : ls.IsChain fun l m => ¬ Fuses l m) : fuse ls = ls := by
  induction ls with
  | nil => rfl
  | cons l ls ih =>
    obtain ⟨h1,h2⟩ := List.isChain_cons.mp h
    rw [fuse_cons,ih h2]
    cases ls with
    | nil => rfl
    | cons m ms => rw [attach,if_neg (h1 m rfl)]

lemma length_fuse_le (ls : List Shape) : (fuse ls).length ≤ ls.length := by
  induction ls with
  | nil => rfl
  | cons l ls ih =>
    rw [fuse_cons]
    cases hf : fuse ls with
    | nil => simp [attach]
    | cons m ms =>
      rw [hf] at ih
      rw [attach]
      split
      · simp only [List.length_cons] at ih ⊢
        omega
      · simpa using ih

/-- Every pair of names that run together costs a lexeme. -/
lemma isChain_of_length_fuse {ls : List Shape} (hf : ∀ l ∈ ls, l.Fits)
    (h : (fuse ls).length = ls.length) : ls.IsChain fun l m => ¬ Fuses l m := by
  induction ls with
  | nil => exact .nil
  | cons l ls ih =>
    cases ls with
    | nil => exact .singleton l
    | cons m ms =>
      obtain ⟨m',ms',hm,hs,-⟩ := exists_fuse_cons m ms fun x hx => hf x (by simp [hx])
      have hle := length_fuse_le (m::ms)
      rw [fuse_cons,hm,attach] at h
      rw [hm] at hle
      by_cases hfuse : Fuses l m'
      · rw [if_pos hfuse] at h
        simp only [List.length_cons] at h hle
        omega
      · rw [if_neg hfuse] at h
        refine List.isChain_cons_cons.mpr ⟨mt (fuses_congr hs).mpr hfuse,?_⟩
        refine ih (fun x hx => hf x (by simp [hx])) ?_
        rw [hm]
        simpa using h

/-- The bytes of digits stick. -/
lemma sticks_of_isDigit {t : Text} (h : ∀ r ∈ t.runes.head?, r.isDigit = true) (ht : t ≠ []) :
    ∃ b ∈ t.head?, sticks b = true := by
  obtain ⟨b,t,rfl⟩ := List.exists_cons_of_ne_nil ht
  obtain ⟨w,more,-,hr,-,hfirst⟩ := Text.runes_cons_split b t
  have hd := h (Rune.first b t) (by rw [hr]; rfl)
  refine ⟨b,rfl,?_⟩
  cases hf : Rune.first b t with
  | stray x => simp [hf,Rune.isDigit] at hd
  | char c =>
    rw [hf] at hd
    have hc := Script.isDigit_iff.mp hd
    obtain rfl := (hfirst c (by omega)).mp hf
    have hn := Text.toNat_ascii (c := c) (by omega)
    simp only [sticks,Text.isWord,Text.isDigit,Bool.or_eq_true,Bool.and_eq_true,decide_eq_true_eq,
      UInt8.le_iff_toNat_le,hn]
    exact Or.inl (Or.inr ⟨hc.1,hc.2⟩)

/-- A name in front of a number is one of the words between expressions, which stick. -/
lemma sticks_of_adjacent {l m : Shape} (hl : l.Fits) (hm : m.Fits) (h : Adjacent l m)
    (hk : l.kind = .name) (hmk : m.kind = .float ∨ m.kind = .int) :
    ∃ a ∈ l.text.getLast?, sticks a = true := by
  have hword : ∀ w ∈ Script.joints ++ Script.leaders ++ Script.openMarks,
      (Script.nextLexeme? (Text.runes w)).map (·.1) = some Script.LexemeKind.name →
      ∃ a ∈ List.getLast? w, sticks a = true := by decide +kernel
  have hmarks : ∀ {words : List Text},
      Script.KindsOf words [.name,.operator,.punctuation] → m.text ∉ words := by
    intro words hw hmem
    have hmem := hw.kind_mem hm hmem
    rcases hmk with hmk | hmk <;> simp [hmk] at hmem
  rcases h with ⟨h,-⟩ | ⟨-,h⟩ | ⟨-,h⟩ | ⟨-,h⟩ | ⟨-,h⟩
  · exact hword _ h (by rw [l.kind_of_text hl,hk])
  · refine absurd h (hmarks ?_)
    unfold Script.KindsOf
    decide +kernel
  · refine absurd h (hmarks ?_)
    unfold Script.KindsOf
    decide +kernel
  · rcases hmk with hmk | hmk <;> simp [h] at hmk
  · refine absurd h (hmarks ?_)
    unfold Script.KindsOf
    decide +kernel

/-- A name that does not run together with its neighbour stands apart from it. -/
lemma apart_of_not_sticky {l m : Shape} (hl : l.Fits) (hm : m.Fits) (ha : Adjacent l m)
    (hs : sticky l.text.getLast? m.text.head? = false) (hf : ¬ Fuses l m) :
    ∀ r ∈ m.text.runes.head?, l.Apart r := by
  rcases ha.touching hl hm with hk | h
  · intro r hr
    simp only [Shape.Apart,hk,Script.Apart]
    rcases Script.Fits.head_cases hm r hr with ⟨hmk,-⟩ | ⟨hmk,hd⟩ | ⟨c,hc,rfl⟩
    · exact absurd ⟨hk,hmk,hs⟩ hf
    · have hone : ∀ x ∈ m.text.runes.head?, x.isDigit = true := by
        intro x hx
        rwa [Option.mem_unique hx hr]
      obtain ⟨b,hb,hbs⟩ := sticks_of_isDigit hone (Shape.text_ne_nil hm)
      obtain ⟨a,ha,has⟩ := sticks_of_adjacent hl hm ha hk hmk
      rw [Option.mem_def.mp ha,Option.mem_def.mp hb] at hs
      simp [sticky,has,hbs] at hs
    · exact Script.not_continuesName_of_mark c hc
  · exact h

lemma head?_text_append {m : Shape} (hm : m.Fits) (t : Text) :
    ∀ b ∈ (m.text ++ t).head?, Text.isBlank b = false := by
  rw [List.head?_append_of_ne_nil _ (Shape.text_ne_nil hm)]
  exact hm.head_not_blank

/-- Names that run together start a layout as one name. -/
lemma laid_fused {l m : Shape} {ms : List Shape} {sep t : Text} (hsep : Blank sep)
    (hf : Fuses l m) (hfit : Shape.Fits ⟨.name,l.text ++ m.text⟩)
    (hhead : ∀ b ∈ t.head?, Text.isBlank b = false) (h : Laid (m::ms) t) :
    Laid (⟨.name,l.text ++ m.text⟩::ms) (sep ++ (l.text ++ t)) := by
  obtain ⟨v,rfl,-,hma,hv⟩ := h.uncons hhead
  rw [← List.append_assoc l.text]
  refine .cons (l := ⟨.name,l.text ++ m.text⟩) hsep hfit ?_ hv
  intro r hr
  have hra := hma r hr
  simp only [Shape.Apart,Script.Apart,hf.2.1] at hra ⊢
  exact hra

/-- A lexeme stands apart from the next one without the blanks that were between them, unless the two
are names that run together. -/
lemma apart_without_gap {l m : Shape} {ms : List Shape} {g rest : Text} (hl : l.Fits)
    (hm : m.Fits) (hlm : Adjacent l m) (hms : Laid (m::ms) (m.text ++ rest))
    (ha : ∀ r ∈ (g ++ (m.text ++ rest)).runes.head?, l.Apart r)
    (hs : g ≠ [] → sticky l.text.getLast? m.text.head? = false) (hf : ¬ Fuses l m) :
    ∀ r ∈ m.text.runes.head?, l.Apart r := by
  by_cases hg : g = []
  · subst hg
    have hgap := Script.not_isGap_of_head (head?_text_append hm rest)
    rwa [List.nil_append,hms.head?_runes hgap] at ha
  · exact apart_of_not_sticky hl hm hlm (hs hg) hf

/-- Other blanks among the code of a layout give a layout of the same lexemes, with the names joined
that run together. -/
theorem Respaced.laid {ls : List Shape} {t u : Text} (hlaid : Laid ls t) (hc : ls.IsChain Adjacent)
    (hkeep : keep → ls.IsChain fun l m => ¬ Fuses l m) (h : Respaced keep last gap .code t u) :
    Laid (fuse ls) u := by
  induction hlaid generalizing last gap u with
  | @nil g hg =>
    rw [← List.append_nil g] at h
    obtain ⟨sep,last',u',rfl,hsep,-,-,hu'⟩ := h.passGap hg
    cases hu' with
    | nil => exact .nil (by simpa using hsep)
  | @cons g rest l ls hg hl ha hr ih =>
    obtain ⟨sep,u,rfl,hsep,-,-,hu⟩ := h.passLexeme hl hg
    have hrest := ih (List.isChain_cons.mp hc).2 (fun hk => (List.isChain_cons.mp (hkeep hk)).2) hu
    cases ls with
    | nil =>
      refine .cons hsep hl ?_ hrest
      exact fun r hr => Shape.apart_of_isGap l (hrest.isGap_of_nil r hr)
    | cons m ms =>
      have hfits : ∀ x ∈ m::ms, x.Fits := hr.fits
      obtain ⟨m',ms',hm,hstart,-⟩ := exists_fuse_cons m ms hfits
      have hlm : Adjacent l m := (List.isChain_cons.mp hc).1 m rfl
      rw [fuse_cons,hm,attach]
      rw [hm] at hrest
      generalize hmm : m::ms = ns at hr
      cases hr with
      | nil => simp at hmm
      | @cons g' rest' n ns hg' hn ha' hr' =>
        simp only [List.cons.injEq] at hmm
        obtain ⟨rfl,rfl⟩ := hmm
        obtain ⟨sep',u',rfl,hsep',hbare,hspaced,-⟩ := hu.passLexeme hn hg'
        by_cases hnil : sep' = []
        · -- nothing is left between the two lexemes
          subst hnil
          rw [List.nil_append] at hrest ⊢
          have hhead := head?_text_append hn u'
          by_cases hf : Fuses l m'
          · rw [if_pos hf]
            refine laid_fused hsep hf ?_ hhead hrest
            obtain ⟨k,ks,hks,-,hkf⟩ := exists_fuse_cons l (m::ms) fun x hx => by
              rcases List.mem_cons.mp hx with rfl | hx
              · exact hl
              · exact hfits x hx
            rw [fuse_cons,hm,attach,if_pos hf,List.cons.injEq] at hks
            exact hks.1 ▸ hkf
          · rw [if_neg hf]
            refine .cons hsep hl ?_ hrest
            rw [hrest.head?_runes (Script.not_isGap_of_head hhead),hstart.rune]
            have hms : Laid (m::ms) (m.text ++ rest') := .cons_touching hn ha' hr'
            exact apart_without_gap hl hn hlm hms ha (fun hg'' => hbare rfl (Or.inr hg''))
              (mt (fuses_congr hstart).mpr hf)
        · have hf : ¬ Fuses l m' := by
            rw [fuses_congr hstart]
            rcases hspaced hnil with hk | hs
            · exact (List.isChain_cons.mp (hkeep hk)).1 m rfl
            · intro hf
              rw [hf.2.2] at hs
              simp at hs
          rw [if_neg hf]
          refine .cons hsep hl ?_ hrest
          exact fun r hr => Shape.apart_of_isGap l (Script.isGap_of_blank_append hsep' hnil r hr)

end

end CellScript.Shorthand
