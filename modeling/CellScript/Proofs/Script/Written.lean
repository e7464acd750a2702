import Mathlib
import CellScript.Proofs.Number.Decimal
import CellScript.Proofs.Script.Alike
import CellScript.Proofs.Script.Layout
import CellScript.Proofs.Script.Levels
import CellScript.Proofs.Script.Literal

/-! Expressions written out: the trees that the grammar has, the words they may be written with, and
how the words read back as the tree. -/
namespace CellScript.Script

/-- The words that are no identifiers. -/
def reserved : List Text :=
  ["or","and","not","true","True","false","False","none","None","row"]

def IsName (w : Text) : Prop := Fits .name w.runes

/-- A name that means nothing else. -/
def IsIdentifier (w : Text) : Prop := IsName w ∧ w ∉ reserved

def arithLevel : Arith → ℕ
  | .add | .sub => 4
  | .mul | .div | .floorDiv | .mod => 5

/-- The level of precedence of an expression, from the loosest one on. -/
def Expr.level : Expr → ℕ
  | .or _ _ => 0
  | .and _ _ => 1
  | .not _ => 2
  | .compare _ _ _ => 3
  | .arith op _ _ => arithLevel op
  | .signed _ _ => 6
  | _ => 7

mutual

/-- The trees of the grammar: operands bind tight enough for their operators, numbers are whole and
not negative, and names are identifiers. -/
def Expr.Grammatical : Expr → Prop
  | .or a b => 1 ≤ b.level ∧ a.Grammatical ∧ b.Grammatical
  | .and a b => 1 ≤ a.level ∧ 2 ≤ b.level ∧ a.Grammatical ∧ b.Grammatical
  | .not a => 2 ≤ a.level ∧ a.Grammatical
  | .compare _ a b => 4 ≤ a.level ∧ 4 ≤ b.level ∧ a.Grammatical ∧ b.Grammatical
  | .arith op a b => arithLevel op ≤ a.level ∧ arithLevel op < b.level ∧ a.Grammatical ∧
      b.Grammatical
  | .signed _ a => 6 ≤ a.level ∧ a.Grammatical
  | .float _ => False
  | .int n => 0 ≤ n.toInt
  | .string _ | .bool _ | .nil => True
  | .cell view key => (∀ v ∈ view, IsName v) ∧ OptionGrammatical key
  | .slice view lo hi => (∀ v ∈ view, IsName v) ∧ OptionGrammatical lo ∧ OptionGrammatical hi
  | .call f args => IsIdentifier f ∧ ListGrammatical args
  | .var n _ => IsIdentifier n
  | .paren a => a.Grammatical

def OptionGrammatical : Option Expr → Prop
  | none => True
  | some a => a.Grammatical

def ListGrammatical : List Expr → Prop
  | [] => True
  | a::as => a.Grammatical ∧ ListGrammatical as

end

def viewWords : Option Text → List Text
  | none => []
  | some view => [Text.ofString ".",view]

mutual

/-- The words of an expression in order. Some operators and constants have two spellings; strings
are in single quotes. -/
def Expr.Written : Expr → List Text → Prop
  | .or a b,ws => ∃ u w v, ws = u ++ w::v ∧ (w,()) ∈ Parser.disjunctions ∧ a.Written u ∧ b.Written v
  | .and a b,ws => ∃ u w v, ws = u ++ w::v ∧ (w,()) ∈ Parser.conjunctions ∧ a.Written u ∧
      b.Written v
  | .not a,ws => ∃ w u, ws = w::u ∧ (w,()) ∈ Parser.negations ∧ a.Written u
  | .compare op a b,ws => ∃ u v, ws = u ++ op.symbol::v ∧ a.Written u ∧ b.Written v
  | .arith op a b,ws => ∃ u v, ws = u ++ op.symbol::v ∧ a.Written u ∧ b.Written v
  | .signed op a,ws => ∃ u, ws = op.symbol::u ∧ a.Written u
  | .float _,_ => False
  | .int n,ws => ws = [Text.ofInt n.toInt]
  | .string t,ws => ws = [quoteLiteral t]
  | .bool true,ws => ws = [Text.ofString "true"] ∨ ws = [Text.ofString "True"]
  | .bool false,ws => ws = [Text.ofString "false"] ∨ ws = [Text.ofString "False"]
  | .nil,ws => ws = [Text.ofString "none"] ∨ ws = [Text.ofString "None"]
  | .cell view key,ws => ∃ k, ws = Text.ofString "row"::(viewWords view ++
      Text.ofString "["::(k ++ [Text.ofString "]"])) ∧ OptionWritten key k
  | .slice view lo hi,ws => ∃ k j, ws = Text.ofString "row"::(viewWords view ++
      Text.ofString "["::(k ++ Text.ofString ":"::(j ++ [Text.ofString "]"]))) ∧
      OptionWritten lo k ∧ OptionWritten hi j
  | .call f args,ws => ∃ k, ws = f::Text.ofString "("::(k ++ [Text.ofString ")"]) ∧
      ItemsWritten args k
  | .var n _,ws => ws = [n]
  | .paren a,ws => ∃ u, ws = Text.ofString "("::(u ++ [Text.ofString ")"]) ∧ a.Written u

def OptionWritten : Option Expr → List Text → Prop
  | none,ws => ws = []
  | some a,ws => a.Written ws

def ItemsWritten : List Expr → List Text → Prop
  | [],ws => ws = []
  | a::as,ws => ∃ u v, ws = u ++ v ∧ a.Written u ∧ MoreWritten as v

def MoreWritten : List Expr → List Text → Prop
  | [],ws => ws = []
  | a::as,ws => ∃ u v, ws = Text.ofString ","::(u ++ v) ∧ a.Written u ∧ MoreWritten as v

end

mutual

/-- The words of an expression in their first spelling. -/
def Expr.words : Expr → List Text
  | .or a b => a.words ++ Text.ofString "or"::b.words
  | .and a b => a.words ++ Text.ofString "and"::b.words
  | .not a => Text.ofString "not"::a.words
  | .compare op a b => a.words ++ op.symbol::b.words
  | .arith op a b => a.words ++ op.symbol::b.words
  | .signed op a => op.symbol::a.words
  | .float x => [Number.ofFloat x]
  | .int n => [Text.ofInt n.toInt]
  | .string t => [quoteLiteral t]
  | .bool b => [Text.ofBool b]
  | .nil => [Text.ofString "none"]
  | .cell view key => Text.ofString "row"::(viewWords view ++
      Text.ofString "["::(optionWords key ++ [Text.ofString "]"]))
  | .slice view lo hi => Text.ofString "row"::(viewWords view ++
      Text.ofString "["::(optionWords lo ++ Text.ofString ":"::(optionWords hi ++
        [Text.ofString "]"])))
  | .call f args => f::Text.ofString "("::(itemsWords args ++ [Text.ofString ")"])
  | .var n _ => [n]
  | .paren a => Text.ofString "("::(a.words ++ [Text.ofString ")"])

def optionWords : Option Expr → List Text
  | none => []
  | some a => a.words

def itemsWords : List Expr → List Text
  | [] => []
  | a::as => a.words ++ moreWords as

def moreWords : List Expr → List Text
  | [] => []
  | a::as => Text.ofString ","::(a.words ++ moreWords as)

end

mutual

/-- Every tree of the grammar can be written. -/
theorem written_words : ∀ e : Expr, e.Grammatical → e.Written e.words
  | .or a b,hg => by
    simp only [Expr.Grammatical] at hg
    simp only [Expr.Written,Expr.words]
    exact ⟨_,_,_,rfl,by decide,written_words a hg.2.1,written_words b hg.2.2⟩
  | .and a b,hg => by
    simp only [Expr.Grammatical] at hg
    simp only [Expr.Written,Expr.words]
    exact ⟨_,_,_,rfl,by decide,written_words a hg.2.2.1,written_words b hg.2.2.2⟩
  | .not a,hg => by
    simp only [Expr.Grammatical] at hg
    simp only [Expr.Written,Expr.words]
    exact ⟨_,_,rfl,by decide,written_words a hg.2⟩
  | .compare op a b,hg | .arith op a b,hg => by
    simp only [Expr.Grammatical] at hg
    simp only [Expr.Written,Expr.words]
    exact ⟨_,_,rfl,written_words a hg.2.2.1,written_words b hg.2.2.2⟩
  | .signed op a,hg => by
    simp only [Expr.Grammatical] at hg
    simp only [Expr.Written,Expr.words]
    exact ⟨_,rfl,written_words a hg.2⟩
  | .float _,hg => by simp only [Expr.Grammatical] at hg
  | .int _,_ | .string _,_ | .var _ _,_ => by simp only [Expr.Written,Expr.words]
  | .bool true,_ | .bool false,_ | .nil,_ => by simp [Expr.Written,Expr.words,Text.ofBool]
  | .cell view key,hg => by
    simp only [Expr.Grammatical] at hg
    simp only [Expr.Written,Expr.words]
    exact ⟨_,rfl,written_optionWords key hg.2⟩
  | .slice view lo hi,hg => by
    simp only [Expr.Grammatical] at hg
    simp only [Expr.Written,Expr.words]
    exact ⟨_,_,rfl,written_optionWords lo hg.2.1,written_optionWords hi hg.2.2⟩
  | .call f args,hg => by
    simp only [Expr.Grammatical] at hg
    simp only [Expr.Written,Expr.words]
    exact ⟨_,rfl,written_itemsWords args hg.2⟩
  | .paren a,hg => by
    simp only [Expr.Grammatical] at hg
    simp only [Expr.Written,Expr.words]
    exact ⟨_,rfl,written_words a hg⟩

lemma written_optionWords : ∀ o : Option Expr, OptionGrammatical o → OptionWritten o (optionWords o)
  | none,_ => rfl
  | some a,hg => by
    simp only [OptionGrammatical] at hg
    simp only [OptionWritten,optionWords]
    exact written_words a hg

lemma written_itemsWords : ∀ es : List Expr, ListGrammatical es → ItemsWritten es (itemsWords es)
  | [],_ => rfl
  | a::as,hg => by
    simp only [ListGrammatical] at hg
    simp only [ItemsWritten,itemsWords]
    exact ⟨_,_,rfl,written_words a hg.1,written_moreWords as hg.2⟩

lemma written_moreWords : ∀ es : List Expr, ListGrammatical es → MoreWritten es (moreWords es)
  | [],_ => rfl
  | a::as,hg => by
    simp only [ListGrammatical] at hg
    simp only [MoreWritten,moreWords]
    exact ⟨_,_,rfl,written_words a hg.1,written_moreWords as hg.2⟩

end

/-- A word that lexing takes whole. -/
def IsLexeme (w : Text) : Prop := ∃ k, Fits k w.runes

def lexesWhole (w : Text) : Bool := (nextLexeme? w.runes).any fun found => found.2 = w.runes.length

lemma fits_of_whole {k : LexemeKind} {w : Text}
    (h : nextLexeme? w.runes = some (k,w.runes.length)) : Fits k w.runes := by
  obtain ⟨l,rest,hs,hl,hf⟩ := fits_of_nextLexeme? h
  have hrest : rest = [] := by
    have hlen := congrArg List.length hs
    rw [hl,List.length_append] at hlen
    exact List.length_eq_zero_iff.mp (by omega)
  rw [hs,hrest,List.append_nil]
  exact hf

lemma isLexeme_of_lexesWhole {w : Text} (h : lexesWhole w = true) : IsLexeme w := by
  simp only [lexesWhole,Option.any_eq_true,decide_eq_true_eq] at h
  obtain ⟨⟨k,n⟩,hn,rfl⟩ := h
  exact ⟨k,fits_of_whole hn⟩

/-- The words and marks that every expression is made of. -/
def fixedWords : List Text :=
  joints ++ leaders ++ Parser.constants.map (·.1) ++
    ["row",".","[","]",":","(",")",","].map Text.ofString

lemma isLexeme_of_fixed {w : Text} (h : w ∈ fixedWords) : IsLexeme w := by
  have hall : ∀ w ∈ fixedWords, lexesWhole w = true := by decide +kernel
  exact isLexeme_of_lexesWhole (hall w h)

lemma isLexeme_viewWords {view : Option Text} (h : ∀ v ∈ view, IsName v) :
    ∀ w ∈ viewWords view, IsLexeme w := by
  cases view with
  | none => simp [viewWords]
  | some v =>
    intro w hw
    simp only [viewWords,List.mem_cons,List.not_mem_nil,or_false] at hw
    rcases hw with rfl | rfl
    · exact isLexeme_of_fixed (by decide)
    · exact ⟨.name,h w rfl⟩

lemma isLexeme_joined {w : Text} {u v : List Text} (hw : w ∈ fixedWords)
    (hu : ∀ x ∈ u, IsLexeme x) (hv : ∀ x ∈ v, IsLexeme x) : ∀ x ∈ u ++ w::v, IsLexeme x := by
  simp only [List.forall_mem_append,List.forall_mem_cons]
  exact ⟨hu,isLexeme_of_fixed hw,hv⟩

lemma mem_fixedWords {α : Type} {words : List (Text × α)} {w : Text} {a : α} (h : (w,a) ∈ words)
    (hs : words.map (·.1) ⊆ fixedWords) : w ∈ fixedWords :=
  hs (List.mem_map_of_mem h)

mutual

/-- Every word of a written expression is a lexeme. -/
theorem isLexeme_of_written : ∀ (e : Expr) {ws : List Text}, e.Grammatical → e.Written ws →
    ∀ w ∈ ws, IsLexeme w
  | .or a b,_,hg,h => by
    simp only [Expr.Grammatical] at hg
    simp only [Expr.Written] at h
    obtain ⟨u,w,v,rfl,hw,ha,hb⟩ := h
    exact isLexeme_joined (mem_fixedWords hw (by decide)) (isLexeme_of_written a hg.2.1 ha)
      (isLexeme_of_written b hg.2.2 hb)
  | .and a b,_,hg,h => by
    simp only [Expr.Grammatical] at hg
    simp only [Expr.Written] at h
    obtain ⟨u,w,v,rfl,hw,ha,hb⟩ := h
    exact isLexeme_joined (mem_fixedWords hw (by decide)) (isLexeme_of_written a hg.2.2.1 ha)
      (isLexeme_of_written b hg.2.2.2 hb)
  | .not a,_,hg,h => by
    simp only [Expr.Grammatical] at hg
    simp only [Expr.Written] at h
    obtain ⟨w,u,rfl,hw,ha⟩ := h
    exact isLexeme_joined (u := []) (mem_fixedWords hw (by decide)) (by simp)
      (isLexeme_of_written a hg.2 ha)
  | .compare op a b,_,hg,h => by
    simp only [Expr.Grammatical] at hg
    simp only [Expr.Written] at h
    obtain ⟨u,v,rfl,ha,hb⟩ := h
    refine isLexeme_joined ?_ (isLexeme_of_written a hg.2.2.1 ha)
      (isLexeme_of_written b hg.2.2.2 hb)
    cases op <;> decide
  | .arith op a b,_,hg,h => by
    simp only [Expr.Grammatical] at hg
    simp only [Expr.Written] at h
    obtain ⟨u,v,rfl,ha,hb⟩ := h
    refine isLexeme_joined ?_ (isLexeme_of_written a hg.2.2.1 ha)
      (isLexeme_of_written b hg.2.2.2 hb)
    cases op <;> decide
  | .signed op a,_,hg,h => by
    simp only [Expr.Grammatical] at hg
    simp only [Expr.Written] at h
    obtain ⟨u,rfl,ha⟩ := h
    refine isLexeme_joined (u := []) ?_ (by simp) (isLexeme_of_written a hg.2 ha)
    cases op <;> decide
  | .float _,_,hg,_ => by simp only [Expr.Grammatical] at hg
  | .int n,_,hg,h => by
    simp only [Expr.Grammatical] at hg
    simp only [Expr.Written] at h
    subst h
    obtain ⟨m,hm⟩ := Int.eq_ofNat_of_zero_le hg
    rw [hm]
    simpa using ⟨.int,fits_of_isDecimal (Text.isDecimal_ofNat m)⟩
  | .string t,_,_,h => by
    simp only [Expr.Written] at h
    subst h
    simpa using ⟨.string,fits_quoteLiteral t⟩
  | .bool true,_,_,h | .bool false,_,_,h | .nil,_,_,h => by
    simp only [Expr.Written] at h
    rcases h with rfl | rfl <;> simpa using isLexeme_of_fixed (by decide)
  | .cell view key,_,hg,h => by
    simp only [Expr.Grammatical] at hg
    simp only [Expr.Written] at h
    obtain ⟨k,rfl,hk⟩ := h
    simp only [List.forall_mem_cons,List.forall_mem_append]
    exact ⟨isLexeme_of_fixed (by decide),isLexeme_viewWords hg.1,isLexeme_of_fixed (by decide),
      isLexeme_of_optionWritten key hg.2 hk,isLexeme_of_fixed (by decide),by simp⟩
  | .slice view lo hi,_,hg,h => by
    simp only [Expr.Grammatical] at hg
    simp only [Expr.Written] at h
    obtain ⟨k,j,rfl,hk,hj⟩ := h
    simp only [List.forall_mem_cons,List.forall_mem_append]
    exact ⟨isLexeme_of_fixed (by decide),isLexeme_viewWords hg.1,isLexeme_of_fixed (by decide),
      isLexeme_of_optionWritten lo hg.2.1 hk,isLexeme_of_fixed (by decide),
      isLexeme_of_optionWritten hi hg.2.2 hj,isLexeme_of_fixed (by decide),by simp⟩
  | .call f args,_,hg,h => by
    simp only [Expr.Grammatical] at hg
    simp only [Expr.Written] at h
    obtain ⟨k,rfl,hk⟩ := h
    simp only [List.forall_mem_cons,List.forall_mem_append]
    exact ⟨⟨.name,hg.1.1⟩,isLexeme_of_fixed (by decide),isLexeme_of_itemsWritten args hg.2 hk,
      isLexeme_of_fixed (by decide),by simp⟩
  | .var n _,_,hg,h => by
    simp only [Expr.Grammatical] at hg
    simp only [Expr.Written] at h
    subst h
    simpa using ⟨.name,hg.1⟩
  | .paren a,_,hg,h => by
    simp only [Expr.Grammatical] at hg
    simp only [Expr.Written] at h
    obtain ⟨u,rfl,ha⟩ := h
    simp only [List.forall_mem_cons,List.forall_mem_append]
    exact ⟨isLexeme_of_fixed (by decide),isLexeme_of_written a hg ha,isLexeme_of_fixed (by decide),
      by simp⟩

lemma isLexeme_of_optionWritten : ∀ (o : Option Expr) {ws : List Text}, OptionGrammatical o →
    OptionWritten o ws → ∀ w ∈ ws, IsLexeme w
  | none,_,_,h => by
    simp only [OptionWritten] at h
    simp [h]
  | some a,_,hg,h => by
    simp only [OptionGrammatical] at hg
    simp only [OptionWritten] at h
    exact isLexeme_of_written a hg h

lemma isLexeme_of_itemsWritten : ∀ (es : List Expr) {ws : List Text}, ListGrammatical es →
    ItemsWritten es ws → ∀ w ∈ ws, IsLexeme w
  | [],_,_,h => by
    simp only [ItemsWritten] at h
    simp [h]
  | a::as,_,hg,h => by
    simp only [ListGrammatical] at hg
    simp only [ItemsWritten] at h
    obtain ⟨u,v,rfl,ha,has⟩ := h
    simp only [List.forall_mem_append]
    exact ⟨isLexeme_of_written a hg.1 ha,isLexeme_of_moreWritten as hg.2 has⟩

lemma isLexeme_of_moreWritten : ∀ (es : List Expr) {ws : List Text}, ListGrammatical es →
    MoreWritten es ws → ∀ w ∈ ws, IsLexeme w
  | [],_,_,h => by
    simp only [MoreWritten] at h
    simp [h]
  | a::as,_,hg,h => by
    simp only [ListGrammatical] at hg
    simp only [MoreWritten] at h
    obtain ⟨u,v,rfl,ha,has⟩ := h
    simp only [List.forall_mem_cons,List.forall_mem_append]
    exact ⟨isLexeme_of_fixed (by decide),isLexeme_of_written a hg.1 ha,
      isLexeme_of_moreWritten as hg.2 has⟩

end

lemma join_cons_cons (sep a b : Text) (ts : List Text) :
    Text.join sep (a::b::ts) = a ++ (sep ++ Text.join sep (b::ts)) := by
  simp [Text.join,List.intercalate]

/-- Lexemes with single spaces between them are laid out. -/
theorem laid_join {ss : List Shape} (h : ∀ s ∈ ss, s.Fits) :
    Laid ss (Text.join (Text.ofString " ") (ss.map (·.text))) := by
  have hsep : Text.ofString " " = [Text.ascii ' '] := rfl
  rw [hsep]
  induction ss with
  | nil => exact .nil (by simp [Blank,Text.join])
  | cons s ss ih =>
    have hrest := ih fun t ht => h t (by simp [ht])
    cases ss with
    | nil =>
      have hend : Laid [] [] := .nil (by simp [Blank])
      simpa [Text.join] using hend.cons_touching (h s (by simp)) (by simp)
    | cons t ss =>
      have hspace : Blank [Text.ascii ' '] := by simp [Blank,Text.isBlank]
      rw [List.map_cons,List.map_cons,join_cons_cons]
      refine (hrest.blank_append hspace).cons_touching (h s (by simp)) ?_
      intro r hr
      obtain ⟨x,hx,hr'⟩ := isGap_of_isBlank (hspace (Text.ascii ' ') (by simp))
        (Text.join [Text.ascii ' '] ((t::ss).map (·.text)))
      rw [List.singleton_append,← List.map_cons,hr'] at hr
      simp only [List.head?_cons,Option.mem_def,Option.some.injEq] at hr
      exact Shape.apart_of_isGap s (hr ▸ hx)

lemma exists_shapes {ws : List Text} (h : ∀ w ∈ ws, IsLexeme w) :
    ∃ ss : List Shape, ss.map (·.text) = ws ∧ ∀ s ∈ ss, s.Fits := by
  induction ws with
  | nil => exact ⟨[],rfl,by simp⟩
  | cons w ws ih =>
    obtain ⟨ss,hss,hf⟩ := ih fun v hv => h v (by simp [hv])
    obtain ⟨k,hk⟩ := h w (by simp)
    exact ⟨⟨k,w⟩::ss,by simp [hss],by simpa using ⟨hk,hf⟩⟩

end CellScript.Script
