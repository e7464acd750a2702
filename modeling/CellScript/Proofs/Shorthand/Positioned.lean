import Mathlib
import CellScript.Proofs.Script.Exchange
import CellScript.Proofs.Shorthand.Field
import CellScript.Proofs.Shorthand.InPlace

/-! A column name given by its position. A source in which every accessor with the name has the
position instead is cut at the same places, and it is expanded to the same code but for the keys. -/
namespace CellScript.Shorthand

open Script (quoteWith placedKey namedKey Exchanged)

/-- What a token becomes when a position is given for a column name. -/
def Token.positioned (n : Text) (k : ℕ) (t : Token) : Text :=
  match t.lexeme with
  | [] => []
  | letter::rest =>
    if t.kind.isAccessor = true ∧ rest = Text.ascii '['::(n ++ [Text.ascii ']']) then
      letter::placedKey k
    else t.lexeme

/-- A source in which every accessor with a column name has the position instead. -/
def positioned (n : Text) (k : ℕ) (src : Text) : Text := inPlace (Token.positioned n k) src

/-- Texts with the same front, as far as tokens are told by it. -/
structure Facing (t u : Text) : Prop where
  front : u.take 2 = t.take 2
  bracket : Text.ascii ']' ∈ u ↔ Text.ascii ']' ∈ t
  accessor : (accessor? u).isSome = (accessor? t).isSome
  kept : u = t ∨ Text.ascii '[' ∈ t ∧ Text.ascii '[' ∈ u

lemma isSome_accessor?_iff {t : Text} : (accessor? t).isSome = true ↔
    ∃ c u, t = c::Text.ascii '['::u ∧ isCastLetter c = true ∧ Text.ascii ']' ∈ u ∧
      u.head? ≠ some (Text.ascii ']') := by
  constructor
  · intro h
    obtain ⟨⟨k,m⟩,hk⟩ := Option.isSome_iff_exists.mp h
    obtain ⟨c,body,rest,rfl,hc,hb,hkind,-⟩ := accessor?_eq_some_iff.mp hk
    refine ⟨c,_,rfl,hc,by simp,?_⟩
    cases body with
    | nil => simp [bodyKind?,appended?,isPositional,isBare] at hkind
    | cons b body =>
      rw [List.cons_append,List.head?_cons,ne_eq,Option.some.injEq]
      rintro rfl
      simp at hb
  · rintro ⟨c,u,rfl,hc,hm,hhead⟩
    obtain ⟨body,rest,rfl,hb⟩ := List.eq_append_cons_of_mem hm
    obtain ⟨k,hk⟩ : ∃ k, bodyKind? body = some k := by
      cases body with
      | nil => simp at hhead
      | cons b body =>
        unfold bodyKind?
        split
        · exact ⟨_,rfl⟩
        · split
          · exact ⟨_,rfl⟩
          · split
            · exact ⟨_,rfl⟩
            · exact ⟨.accessor,rfl⟩
    rw [accessor?_eq_some_iff.mpr ⟨c,body,rest,rfl,hc,hb,hk,rfl⟩]
    rfl

namespace Facing

variable {t u : Text}

lemma refl (t : Text) : Facing t t := ⟨rfl,Iff.rfl,rfl,Or.inl rfl⟩

lemma symm (h : Facing t u) : Facing u t :=
  ⟨h.front.symm,h.bracket.symm,h.accessor.symm,h.kept.imp Eq.symm And.symm⟩

lemma head?_eq (h : Facing t u) : u.head? = t.head? := by
  have hf := congrArg List.head? h.front
  simpa [List.head?_take] using hf

lemma isSome_accessor?_append (h : Facing t u) {w : Text} (hw : w ≠ [])
    (ha : (accessor? (w ++ t)).isSome = true) : (accessor? (w ++ u)).isSome = true := by
  obtain ⟨c,x,hx,hc,hm,hhead⟩ := isSome_accessor?_iff.mp ha
  refine isSome_accessor?_iff.mpr ?_
  match w,hw with
  | [a],_ =>
    simp only [List.cons_append,List.nil_append,List.cons.injEq] at hx
    obtain ⟨rfl,rfl⟩ := hx
    have hfront := h.front
    cases u with
    | nil => simp at hfront
    | cons b u =>
      simp only [List.take_succ_cons,List.cons.injEq] at hfront
      obtain ⟨rfl,htake⟩ := hfront
      have hne : Text.ascii ']' ≠ Text.ascii '[' := by decide
      have hbracket := h.bracket
      simp only [List.mem_cons,hne,false_or] at hbracket
      have hsame : u.head? = x.head? := by
        simpa [List.head?_take] using congrArg List.head? htake
      exact ⟨a,u,rfl,hc,hbracket.mpr hm,by rwa [hsame]⟩
  | [a,b],_ =>
    simp only [List.cons_append,List.nil_append,List.cons.injEq] at hx
    obtain ⟨rfl,rfl,rfl⟩ := hx
    exact ⟨a,u,rfl,hc,h.bracket.mpr hm,by rwa [h.head?_eq]⟩
  | a::b::d::w,_ =>
    simp only [List.cons_append,List.cons.injEq] at hx
    obtain ⟨rfl,rfl,rfl⟩ := hx
    refine ⟨a,d::(w ++ u),rfl,hc,?_,hhead⟩
    simp only [List.mem_cons,List.mem_append,h.bracket] at hm ⊢
    exact hm

/-- The same text in front keeps the fronts the same. -/
lemma append (h : Facing t u) {w : Text} (hw : w ≠ []) : Facing (w ++ t) (w ++ u) := by
  refine ⟨?_,by simp [h.bracket],?_,?_⟩
  · rw [List.take_append,List.take_append]
    congr 1
    have hpos := List.length_pos_of_ne_nil hw
    have hone := congrArg (List.take (2-w.length)) h.front
    rwa [List.take_take,List.take_take,min_eq_left (by omega)] at hone
  · rw [Bool.eq_iff_iff]
    exact ⟨h.symm.isSome_accessor?_append hw,h.isSome_accessor?_append hw⟩
  · rcases h.kept with rfl | ⟨h1,h2⟩
    · exact Or.inl rfl
    · exact Or.inr ⟨by simp [h1],by simp [h2]⟩

lemma operator?_eq (h : Facing t u) : operator? u = operator? t := by
  have hfront := h.front
  cases t with
  | nil =>
    cases u with
    | nil => rfl
    | cons b u => simp at hfront
  | cons a t =>
    cases u with
    | nil => simp at hfront
    | cons b u =>
      simp only [List.take_succ_cons,List.cons.injEq] at hfront
      obtain ⟨rfl,htake⟩ := hfront
      have hnext : u.head? = t.head? := by
        simpa [List.head?_take] using congrArg List.head? htake
      simp only [operator?,hnext]

lemma isSome_token? (h : Facing t u) (before : Option UInt8) :
    (token? before u).isSome = (token? before t).isSome := by
  have htoken : ∀ t, (token? before t).isSome =
      ((opensAfter before && (accessor? t).isSome) || (operator? t).isSome) := by
    intro t
    unfold token?
    cases opensAfter before <;> cases accessor? t <;> simp
  rw [htoken,htoken,h.accessor,h.operator?_eq]

lemma token?_eq_none (h : Facing t u) {before : Option UInt8} (ht : token? before t = none) :
    token? before u = none := by
  rw [← Option.isSome_eq_false_iff.trans Option.isNone_iff_eq_none,h.isSome_token?,ht]
  rfl

end Facing

lemma Run.facing {start : Bool} {before : Option UInt8} {s : Script.Spot} {w rest rest' : Text}
    (h : Run start before s w rest) (hf : Facing rest rest') : Run start before s w rest' := by
  induction h with
  | ended =>
    have hnil : rest' = [] := by simpa using hf.head?_eq
    rw [hnil]
    exact .ended
  | @stop start before b rest h =>
    obtain ⟨u,rfl⟩ := List.head?_eq_some_iff.mp hf.head?_eq
    refine .stop (h.imp id fun ⟨hs,ht⟩ => ⟨hs,?_⟩)
    rw [hf.isSome_token?]
    exact ht
  | inside hs _ ih => exact .inside hs (ih hf)
  | @byte start before b w rest hb hn _ ih =>
    refine .byte hb (hn.imp id fun hn => ?_) (ih hf)
    rw [← List.cons_append] at hn ⊢
    exact (hf.append (by simp)).token?_eq_none hn

lemma Piece.facing {before : Option UInt8} {k : Kind} {w rest rest' : Text}
    (h : Piece before k w rest) (hf : Facing rest rest') : Piece before k w rest' := by
  have hne := h.ne_nil
  cases h with
  | accessor ho hc hbody hk => exact .accessor ho hc hbody hk
  | operator h => exact .operator ((hf.append hne).operator?_eq.trans h)
  | run _ ht hr => exact .run hne ((hf.append hne).token?_eq_none ht) (hr.facing hf)

lemma Piece.isSome_accessor? {before : Option UInt8} {kind : Kind} {w rest : Text}
    (h : Piece before kind w rest) (hk : kind.isAccessor = true) :
    (accessor? (w ++ rest)).isSome = true := by
  cases h with
  | @accessor c _ body _ ho hc hbody hkind =>
    rw [accessor?_eq_some_iff.mpr ⟨c,body,rest,by simp,hc,hbody,hkind,rfl⟩]
    rfl
  | operator h =>
    obtain ⟨_,_,_,_,_,_,hno⟩ := operator?_eq_some h
    simp [hk] at hno
  | run => simp [Kind.isAccessor] at hk

section

variable {n : Text} {k : ℕ}

/-- The same token elsewhere, or a position in place of the column name. -/
inductive Token.Placed (n : Text) (k : ℕ) : Token → Token → Prop
  | same (kind : Kind) (lexeme : Text) (pos pos' : ℕ) :
      Placed n k ⟨kind,lexeme,pos⟩ ⟨kind,lexeme,pos'⟩
  | key {c : UInt8} (pos pos' : ℕ) : isCastLetter c = true →
      Placed n k ⟨.ambiguous,c::Text.ascii '['::(n ++ [Text.ascii ']']),pos⟩
        ⟨.accessor,c::placedKey k,pos'⟩

lemma piece_placedKey {before : Option UInt8} {c : UInt8} (ho : opensAfter before = true)
    (hc : isCastLetter c = true) (k : ℕ) (rest : Text) :
    Piece before .accessor (c::placedKey k) rest := by
  have hdecimal := Text.isDecimal_ofNat k
  refine .accessor ho hc ?_ (bodyKind?_of_positional (isPositional_of_isDecimal hdecimal))
  intro hm
  exact absurd (hdecimal.2 _ hm) (by decide)

/-- A piece that is positioned is an accessor with the column name. -/
lemma Piece.positioned (hn : ColumnName n) {before : Option UInt8} {kind : Kind} {w rest : Text}
    (h : Piece before kind w rest) (pos : ℕ) :
    Token.positioned n k ⟨kind,w,pos⟩ = w ∨ ∃ c, opensAfter before = true ∧
      isCastLetter c = true ∧ kind = .ambiguous ∧ w = c::Text.ascii '['::(n ++ [Text.ascii ']']) ∧
      Token.positioned n k ⟨kind,w,pos⟩ = c::placedKey k := by
  by_cases hx : ∃ c, w = c::Text.ascii '['::(n ++ [Text.ascii ']']) ∧ kind.isAccessor = true
  · right
    obtain ⟨c,rfl,hk⟩ := hx
    have hplaced : Token.positioned n k
        ⟨kind,c::Text.ascii '['::(n ++ [Text.ascii ']']),pos⟩ = c::placedKey k := by
      simp [Token.positioned,hk]
    generalize hw : c::Text.ascii '['::(n ++ [Text.ascii ']']) = w at h
    cases h with
    | @accessor d _ body _ ho hd hbody hkind =>
      simp only [List.cons.injEq,true_and] at hw
      obtain ⟨rfl,hw⟩ := hw
      obtain rfl := List.append_cancel_right hw
      rw [hn.bodyKind?,Option.some.injEq] at hkind
      exact ⟨c,ho,hd,hkind.symm,rfl,hplaced⟩
    | operator h =>
      obtain ⟨_,_,_,_,_,_,hno⟩ := operator?_eq_some h
      simp [hk] at hno
    | run => simp [Kind.isAccessor] at hk
  · left
    obtain ⟨c,w,rfl⟩ := List.exists_cons_of_ne_nil h.ne_nil
    simp only [Token.positioned]
    refine if_neg fun ⟨hk,hw⟩ => hx ⟨c,by rw [hw],hk⟩

/-- A positioned source is cut at the same places. -/
theorem Cut.positioned (hn : ColumnName n) {pos : ℕ} {before : Option UInt8} {t : Text}
    {ts : List Token} (h : Cut pos before t ts) (pos' : ℕ) :
    Facing t (inPlaceFrom (Token.positioned n k) pos t ts) ∧
      ∃ us, Cut pos' before (inPlaceFrom (Token.positioned n k) pos t ts) us ∧
        List.Forall₂ (Token.Placed n k) ts us := by
  induction h generalizing pos' with
  | nil => exact ⟨.refl _,[],.nil,.nil⟩
  | @blank pos before b t ts hb hc ih =>
    obtain ⟨hf,us,hu,hus⟩ := ih (pos'+1)
    rw [inPlaceFrom_blank hc.le_pos]
    exact ⟨hf.append (w := [b]) (by simp),us,.blank hb hu,hus⟩
  | @token pos before kind w t ts hb hp hc ih =>
    rw [inPlaceFrom_token]
    rcases hp.positioned (k := k) hn pos with hw | ⟨c,ho,hcast,rfl,rfl,hw⟩
    · obtain ⟨hf,us,hu,hus⟩ := ih (pos'+w.length)
      rw [hw]
      exact ⟨hf.append hp.ne_nil,⟨kind,w,pos'⟩::us,.token hb (hp.facing hf) hu,
        .cons (.same _ _ _ _) hus⟩
    · obtain ⟨hf,us,hu,hus⟩ := ih (pos'+(c::placedKey k).length)
      rw [hw]
      have hlast : ∀ body : Text, (c::Text.ascii '['::(body ++ [Text.ascii ']'])).getLast? =
          some (Text.ascii ']') := by
        intro body
        rw [← List.cons_append,← List.cons_append,List.getLast?_concat]
      have hpiece := piece_placedKey ho hcast k
        (inPlaceFrom (Token.positioned n k)
          (pos+(c::Text.ascii '['::(n ++ [Text.ascii ']'])).length) t ts)
      refine ⟨⟨rfl,by simp [placedKey],?_,Or.inr ⟨by simp,by simp [placedKey]⟩⟩,
        ⟨.accessor,c::placedKey k,pos'⟩::us,.token (by simpa using hb) hpiece ?_,
        .cons (.key _ _ hcast) hus⟩
      · rw [hpiece.isSome_accessor? rfl,hp.isSome_accessor? rfl]
      · rw [hlast] at hu
        rw [placedKey,hlast]
        exact hu

/-- The same field, or the position in place of the column name. -/
structure Field.Placed (n : Text) (k : ℕ) (f g : Field) : Prop where
  cast : g.cast = f.cast
  ref : g.ref = f.ref ∨ f.ref = quoteWith (Text.ascii '"') n ∧ g.ref = Text.ofNat k

lemma Field.Placed.refl (f : Field) : f.Placed n k f := ⟨rfl,Or.inl rfl⟩

lemma Field.Placed.cellText {f g : Field} (h : f.Placed n k g) (view : Option Text) :
    Exchanged n k (Script.cellText view f.ref) (Script.cellText view g.ref) := by
  rcases h.ref with hr | ⟨hf,hg⟩
  · rw [hr]
    exact .refl _
  · have hopen : Text.ofString "[" = [Text.ascii '['] := by decide
    have hclose : Text.ofString "]" = [Text.ascii ']'] := by decide
    have hkey : Exchanged n k (namedKey n) (placedKey k) := by
      simpa using Exchanged.key (n := n) (k := k) .nil
    rw [Script.cellText,Script.cellText,hf,hg,hopen,hclose]
    exact (Exchanged.refl _).append ((Exchanged.refl _).append hkey)

lemma Field.Placed.target {f g : Field} (h : f.Placed n k g) :
    Exchanged n k f.target g.target := by
  rw [Field.target_eq,Field.target_eq]
  exact h.cellText none

lemma Field.Placed.read {f g : Field} (h : f.Placed n k g) : Exchanged n k f.read g.read := by
  rw [Field.read_eq,Field.read_eq,h.cast]
  exact h.cellText _

structure Draft.Placed (n : Text) (k : ℕ) (d e : Draft) : Prop where
  pending : Option.Rel (Field.Placed n k) d.pending e.pending
  atTarget : e.atTarget = d.atTarget
  inGroup : e.inGroup = d.inGroup
  fragments : List.Forall₂ (Exchanged n k) d.fragments e.fragments
  newHeaders : e.newHeaders = d.newHeaders

namespace Draft.Placed

variable {d e : Draft}

lemma write (h : d.Placed n k e) {w x : Text} (hw : Exchanged n k w x) :
    (d.write w).Placed n k (e.write x) :=
  ⟨h.pending,h.atTarget,h.inGroup,List.rel_append h.fragments (.cons hw .nil),h.newHeaders⟩

lemma flush (h : d.Placed n k e) : d.flush.Placed n k e.flush := by
  obtain ⟨pending,atTarget,inGroup,fragments,newHeaders⟩ := d
  obtain ⟨pending',atTarget',inGroup',fragments',newHeaders'⟩ := e
  have hp := h.pending
  dsimp only at hp
  cases hp with
  | none => exact h
  | some hf =>
    refine Draft.Placed.write (d := ⟨none,atTarget,inGroup,fragments,newHeaders⟩)
      (e := ⟨none,atTarget',inGroup',fragments',newHeaders'⟩) ?_ hf.read
    exact ⟨.none,h.atTarget,h.inGroup,h.fragments,h.newHeaders⟩

lemma pass (h : d.Placed n k e) (text : Text) : (d.pass text).Placed n k (e.pass text) :=
  h.flush.write (.refl text)

lemma endStatement (h : d.Placed n k e) : d.endStatement.Placed n k e.endStatement := by
  have hf := h.flush
  rw [Draft.endStatement,Draft.endStatement]
  dsimp only
  rw [hf.inGroup]
  split
  · have hw := hf.write (.refl (Text.ofString ")"))
    exact ⟨hw.pending,hw.atTarget,rfl,hw.fragments,hw.newHeaders⟩
  · exact hf

lemma assign (h : d.Placed n k e) (op : Text) : (d.assign op).Placed n k (e.assign op) := by
  obtain ⟨pending,atTarget,inGroup,fragments,newHeaders⟩ := d
  obtain ⟨pending',atTarget',inGroup',fragments',newHeaders'⟩ := e
  have hp := h.pending
  dsimp only at hp
  have hplain : Draft.Placed n k ⟨none,false,inGroup,fragments,newHeaders⟩
      ⟨none,false,inGroup',fragments',newHeaders'⟩ :=
    ⟨.none,rfl,h.inGroup,h.fragments,h.newHeaders⟩
  cases hp with
  | none => exact hplain.write (.refl op)
  | @some f g hf =>
    have hw := hplain.write (hf.target.append (.refl (Text.ofString " = ")))
    simp only [Draft.assign]
    split
    · exact hw
    · have hr := hw.write (((hf.read.append (.refl (Text.ofString " "))).append
        (.refl (Draft.bareOperator op))).append (.refl (Text.ofString " (")))
      exact ⟨hr.pending,hr.atTarget,rfl,hr.fragments,hr.newHeaders⟩

lemma withPending (h : d.Placed n k e) {f g : Field} (hf : f.Placed n k g) :
    Draft.Placed n k { d with pending := some f } { e with pending := some g } :=
  ⟨.some hf,h.atTarget,h.inGroup,h.fragments,h.newHeaders⟩

end Draft.Placed

lemma exists_ofLetter? {c : UInt8} (h : isCastLetter c = true) :
    ∃ cast, Cast.ofLetter? c = some cast := by
  simp only [isCastLetter,Bool.or_eq_true,beq_iff_eq] at h
  rcases h with ((rfl | rfl) | rfl) | rfl
  · exact ⟨.toText,rfl⟩
  · exact ⟨.toFloat,rfl⟩
  · exact ⟨.toInt,rfl⟩
  · exact ⟨.asIs,rfl⟩

/-- Tokens that are placed alike have fields that are. -/
lemma Token.Placed.field (hn : ColumnName n) {t u : Token} (h : t.Placed n k u) {f : Field}
    (hf : t.field true = .ok f) : ∃ g, u.field true = .ok g ∧ f.Placed n k g := by
  cases h with
  | same kind lexeme pos pos' => exact ⟨f,Token.field_at hf pos',.refl f⟩
  | @key c pos pos' hc =>
    obtain ⟨cast,hcast⟩ := exists_ofLetter? hc
    have hdecimal : Script.Laid [⟨.int,Text.ofNat k⟩] (Text.ofNat k) :=
      Script.laid_single (l := ⟨.int,Text.ofNat k⟩)
        (Script.fits_of_isDecimal (Text.isDecimal_ofNat k))
    rw [Token.field_of_split (Token.split_bracketed hcast hn.word .ambiguous pos),
      Except.ok.injEq] at hf
    refine ⟨⟨cast,Text.ofNat k⟩,Token.field_of_split
      (Token.split_bracketed hcast hdecimal.not_blankOnly .accessor pos'),?_⟩
    rw [← hf]
    exact ⟨rfl,Or.inr ⟨autoQuote_of_name hn.noPosition,rfl⟩⟩

lemma Token.newColumn_at {t : Token} {x : Cast × Text} (h : t.newColumn = .ok x) (pos : ℕ) :
    Token.newColumn { t with pos := pos } = .ok x := by
  unfold Token.newColumn at h ⊢
  cases hs : t.split with
  | error e => simp [hs,bind,Except.bind] at h
  | ok y =>
    obtain ⟨cast,body⟩ := y
    rw [(Token.split_eq_ok hs).2 pos]
    simp only [hs,bind,Except.bind] at h ⊢
    cases ha : appended? body with
    | none => simp [ha] at h
    | some rest =>
      simp only [ha] at h ⊢
      split at h
      · simp at h
      · rename_i hq
        rw [if_neg hq]
        exact h

lemma Token.Placed.kind {t u : Token} (h : t.Placed n k u) :
    u = { t with pos := u.pos } ∨ t.kind = .ambiguous ∧ u.kind = .accessor := by
  cases h with
  | same => exact Or.inl rfl
  | key => exact Or.inr ⟨rfl,rfl⟩

/-- A step that takes the field of a token takes the fields of tokens that are placed alike. -/
lemma Token.Placed.step (hn : ColumnName n) {t u : Token} (h : t.Placed n k u)
    {F G : Field → Draft} (hFG : ∀ f g, f.Placed n k g → (F f).Placed n k (G g)) {d : Draft}
    (hd : (t.field true).map F = .ok d) :
    ∃ e, (u.field true).map G = .ok e ∧ d.Placed n k e := by
  cases hf : t.field true with
  | error x => simp [hf,Except.map] at hd
  | ok f =>
    rw [hf,Except.map,Except.ok.injEq] at hd
    obtain ⟨g,hg,hfg⟩ := h.field hn hf
    exact ⟨G g,by rw [hg,Except.map],hd ▸ hFG f g hfg⟩

lemma Draft.Placed.visitStatement (hn : ColumnName n) {d e d' : Draft} (h : d.Placed n k e)
    {t u : Token} (ht : t.Placed n k u) (hd : d.visitStatement true t = .ok d') :
    ∃ e', e.visitStatement true u = .ok e' ∧ d'.Placed n k e' := by
  have haccessor : (t.kind = .accessor ∨ t.kind = .ambiguous) →
      (u.kind = .accessor ∨ u.kind = .ambiguous) →
      ∃ e', e.visitStatement true u = .ok e' ∧ d'.Placed n k e' := by
    intro hk hk'
    rw [Draft.visitStatement_accessor d hk] at hd
    rw [Draft.visitStatement_accessor e hk']
    exact ht.step hn (fun _ _ => h.flush.withPending) hd
  rcases ht.kind with hu | ⟨hk,hk'⟩
  · obtain ⟨kind,lexeme,pos⟩ := t
    generalize u.pos = pos' at hu
    subst hu
    cases kind with
    | accessor => exact haccessor (Or.inl rfl) (Or.inl rfl)
    | ambiguous => exact haccessor (Or.inr rfl) (Or.inr rfl)
    | append =>
      simp only [Draft.visitStatement] at hd ⊢
      cases hc : Token.newColumn ⟨.append,lexeme,pos⟩ with
      | error x => simp [hc,bind,Except.bind] at hd
      | ok x =>
        obtain ⟨cast,label⟩ := x
        have hc' := Token.newColumn_at hc pos'
        simp only [hc,bind,Except.bind,pure,Except.pure,Except.ok.injEq] at hd
        simp only at hc'
        simp only [hc',bind,Except.bind,pure,Except.pure]
        refine ⟨_,rfl,?_⟩
        have hlabel : e.labelFor label = d.labelFor label := by
          simp only [Draft.labelFor,h.newHeaders]
        rw [← hd,hlabel]
        have hf := h.flush
        exact ⟨.some (.refl _),hf.atTarget,hf.inGroup,hf.fragments,by rw [h.newHeaders]⟩
    | assignment =>
      simp only [Draft.visitStatement,Except.ok.injEq] at hd ⊢
      refine ⟨_,rfl,?_⟩
      rw [← hd,h.atTarget]
      split
      · exact h.assign lexeme
      · exact h.pass lexeme
    | separator =>
      simp only [Draft.visitStatement,Except.ok.injEq] at hd ⊢
      refine ⟨_,rfl,?_⟩
      rw [← hd]
      have hw := h.endStatement.write (.refl lexeme)
      exact ⟨hw.pending,rfl,hw.inGroup,hw.fragments,hw.newHeaders⟩
    | passthrough =>
      simp only [Draft.visitStatement,Except.ok.injEq] at hd ⊢
      exact ⟨_,rfl,hd ▸ h.pass lexeme⟩
  · exact haccessor (Or.inr hk) (Or.inl hk')

lemma Draft.Placed.visitFilter (hn : ColumnName n) {d e d' : Draft} (h : d.Placed n k e)
    {t u : Token} (ht : t.Placed n k u) (hd : d.visitFilter true t = .ok d') :
    ∃ e', e.visitFilter true u = .ok e' ∧ d'.Placed n k e' := by
  have haccessor : (t.kind = .accessor ∨ t.kind = .ambiguous) →
      (u.kind = .accessor ∨ u.kind = .ambiguous) →
      ∃ e', e.visitFilter true u = .ok e' ∧ d'.Placed n k e' := by
    intro hk hk'
    rw [Draft.visitFilter_accessor d hk] at hd
    rw [Draft.visitFilter_accessor e hk']
    exact ht.step hn (fun _ _ hfg => h.write hfg.read) hd
  rcases ht.kind with hu | ⟨hk,hk'⟩
  · obtain ⟨kind,lexeme,pos⟩ := t
    generalize u.pos = pos' at hu
    subst hu
    cases kind with
    | accessor => exact haccessor (Or.inl rfl) (Or.inl rfl)
    | ambiguous => exact haccessor (Or.inr rfl) (Or.inr rfl)
    | append => simp [Draft.visitFilter] at hd
    | assignment | separator | passthrough =>
      simp only [Draft.visitFilter,Except.ok.injEq] at hd ⊢
      exact ⟨_,rfl,hd ▸ h.pass lexeme⟩
  · exact haccessor (Or.inr hk) (Or.inl hk')

/-- Tokens that are placed alike keep drafts so. -/
lemma Draft.Placed.foldlM (hn : ColumnName n) (mode : Mode) {ts us : List Token}
    (ht : List.Forall₂ (Token.Placed n k) ts us) {d e d' : Draft} (h : d.Placed n k e)
    (hd : ts.foldlM (Draft.visit mode true) d = .ok d') :
    ∃ e', us.foldlM (Draft.visit mode true) e = .ok e' ∧ d'.Placed n k e' := by
  induction ht generalizing d e with
  | nil =>
    simp only [List.foldlM_nil,pure,Except.pure,Except.ok.injEq] at hd
    subst hd
    exact ⟨e,rfl,h⟩
  | @cons t u ts us htu _ ih =>
    rw [List.foldlM_cons] at hd
    cases hx : Draft.visit mode true d t with
    | error x => simp [hx,bind,Except.bind] at hd
    | ok d₁ =>
      simp only [hx,bind,Except.bind] at hd
      obtain ⟨e₁,he₁,hde⟩ : ∃ e₁, Draft.visit mode true e u = .ok e₁ ∧ d₁.Placed n k e₁ := by
        cases mode with
        | statement => exact h.visitStatement hn htu hx
        | filter => exact h.visitFilter hn htu hx
      obtain ⟨e',he',hd'⟩ := ih hde hd
      refine ⟨e',?_,hd'⟩
      rw [List.foldlM_cons,he₁]
      exact he'

lemma exchanged_glue {code code' w x : Text} (hc : Exchanged n k code code')
    (hw : Exchanged n k w x) : Exchanged n k (glue code w) (glue code' x) := by
  unfold glue
  rw [hc.getLast?_eq,hw.head?_eq]
  split
  · split
    · exact hc.append (.byte _ hw)
    · exact hc.append hw
  · exact hc.append hw

lemma exchanged_glueAll {ws xs : List Text} (h : List.Forall₂ (Exchanged n k) ws xs) :
    Exchanged n k (glueAll ws) (glueAll xs) := by
  have hfold : ∀ {code code' : Text}, Exchanged n k code code' →
      Exchanged n k (ws.foldl glue code) (xs.foldl glue code') := by
    induction h with
    | nil => exact fun hc => hc
    | cons hw _ ih => exact fun hc => ih (exchanged_glue hc hw)
  exact hfold .nil

/-- A positioned source is expanded to the same code but for the keys, and creates the same
columns. -/
theorem expand_positioned (hn : ColumnName n) (k : ℕ) (mode : Mode) {src : Text} {x : Expansion}
    (h : expand mode true src = .ok x) : ∃ y, expand mode true (positioned n k src) = .ok y ∧
      y.newHeaders = x.newHeaders ∧ Exchanged n k x.code y.code := by
  obtain ⟨-,us,hu,hus⟩ := (cut_scan src).positioned (k := k) hn 0
  have hscan : scan (positioned n k src) = us := hu.scanFrom_eq
  rw [expand] at h
  cases hd : (scan src).foldlM (Draft.visit mode true) {} with
  | error e => simp [hd,bind,Except.bind] at h
  | ok d =>
    simp only [hd,bind,Except.bind,pure,Except.pure,Except.ok.injEq] at h
    have hstart : Draft.Placed n k {} {} := ⟨.none,rfl,rfl,.nil,rfl⟩
    obtain ⟨e,he,hde⟩ := hstart.foldlM hn mode hus hd
    have hend := hde.endStatement
    refine ⟨e.finish,?_,?_,?_⟩
    · rw [expand,hscan,he]
      rfl
    · rw [← h]
      exact hend.newHeaders
    · rw [← h]
      exact exchanged_glueAll hend.fragments

/-- A positioned source is blank only if the source is. -/
lemma blankOnly_positioned (hn : ColumnName n) (k : ℕ) (src : Text) :
    Text.blankOnly (positioned n k src) = Text.blankOnly src := by
  have hbracket : ∀ t : Text, Text.ascii '[' ∈ t → Text.blankOnly t = false :=
    fun t ht => Text.not_blankOnly_of_mem (by decide) ht
  rcases ((cut_scan src).positioned (k := k) hn 0).1.kept with h | ⟨h1,h2⟩
  · exact congrArg Text.blankOnly h
  · rw [hbracket _ h1]
    exact hbracket _ h2

end

end CellScript.Shorthand
