import Mathlib
import CellScript.Proofs.Shorthand.Assignment
import CellScript.Proofs.Shorthand.NewColumn
import CellScript.Proofs.Shorthand.Positioned

/-! Statements in sequence. What stands on the two sides of a separator is cut into tokens and
expanded on its own. Only the count of new columns is carried over, so that columns without a label
are numbered through. -/
namespace CellScript.Shorthand

open Script (Spot)

/-- The text of a token, with a number for a new column that has no label. -/
def Token.numbered (n : ℕ) (t : Token) : Text :=
  match t.kind,t.newColumn with
  | .append,.ok (_,[]) => t.lexeme.take 1 ++ "[+_" ++ Text.ofNat n ++ "]"
  | _,_ => t.lexeme

/-- How many new columns there are up to a token. -/
def ordinal (ts : List Token) (t : Token) : ℕ :=
  ts.countP fun u => u.kind = .append ∧ u.pos ≤ t.pos

/-- A source in which the n-th new column is labelled _(k+n) if it has no label. -/
def numbered (k : ℕ) (src : Text) : Text :=
  inPlace (fun t => t.numbered (k+ordinal (scan src) t)) src

/-- A text with a closing bracket behind every opening one, and with its literals closed, is cut in
front of a separator as it is cut on its own. -/
theorem Cut.before_separator {pos : ℕ} {before : Option UInt8} {t ext : Text} {ts us : List Token}
    (h : Cut pos before t ts)
    (hbracket : ∀ p u, t = p ++ Text.ascii '['::u → Text.ascii ']' ∈ u)
    (hliteral : ∀ x ∈ ts, x.kind = .passthrough → Spot.code.after x.lexeme = .code)
    (he : Ends ext) (hu : Cut (pos+t.length) (t.getLast?.or before) ext us) :
    Cut pos before (t ++ ext) (ts ++ us) := by
  induction h with
  | nil => simpa using hu
  | @blank pos before b t ts hb hc ih =>
    refine .blank hb (ih (fun p u ht => hbracket (b::p) u (by rw [ht]; rfl)) hliteral ?_)
    rwa [List.length_cons,getLast?_cons_or,show pos+(t.length+1) = pos+1+t.length by omega] at hu
  | @token pos before k w t ts hb hp hc ih =>
    rw [List.append_assoc,List.cons_append]
    refine .token hb (hp.append he ?_ ?_) (ih ?_ (fun x hx => hliteral x (by simp [hx])) ?_)
    · intro _ p c u hw _ _
      exact hbracket (p ++ [c]) (u ++ t) (by simp [hw])
    · intro hk _
      exact hliteral ⟨k,w,pos⟩ (by simp) hk
    · exact fun p u ht => hbracket (w ++ p) u (by rw [ht,List.append_assoc])
    · rwa [getLast?_append_or hp.ne_nil,List.length_append,← Nat.add_assoc] at hu

/-- The tokens of two sources with a separator between them. -/
lemma scan_separator {a : Text} (hbracket : ∀ p u, a = p ++ Text.ascii '['::u → Text.ascii ']' ∈ u)
    (hliteral : ∀ t ∈ scan a, t.kind = .passthrough → Spot.code.after t.lexeme = .code) (b : Text) :
    scan (a ++ Text.ascii ';'::b) =
      scan a ++ ⟨.separator,[Text.ascii ';'],a.length⟩::(scan b).map (Token.shift (a.length+1)) := by
  have hrest : Cut (a.length+1) (some (Text.ascii ';')) b
      ((scan b).map (Token.shift (a.length+1))) := by
    have hopen : Cut 0 (some (Text.ascii ';')) b (scan b) := (cut_scan b).congr_before (by decide)
    have hshift := hopen.shift (a.length+1)
    rwa [Nat.zero_add] at hshift
  have hpiece : Piece (a.getLast?.or none) .separator [Text.ascii ';'] b := .operator rfl
  have hcut : Cut (0+a.length) (a.getLast?.or none) (Text.ascii ';'::b)
      (⟨.separator,[Text.ascii ';'],a.length⟩::(scan b).map (Token.shift (a.length+1))) := by
    rw [Nat.zero_add]
    refine .token (w := [Text.ascii ';']) ?_ hpiece hrest
    rintro c ⟨⟩
    decide
  have hends : Ends (Text.ascii ';'::b) := by simp [Ends]
  exact ((cut_scan a).before_separator hbracket hliteral hends hcut).scanFrom_eq

def numberedTexts : ℕ → List Token → List Text
  | _,[] => []
  | k,t::ts => t.numbered (k+1)::numberedTexts (if t.kind = .append then k+1 else k) ts

lemma Token.numbered_of_kind {t : Token} (h : t.kind ≠ .append) (n : ℕ) :
    t.numbered n = t.lexeme := by
  unfold numbered
  split
  · rename_i hk _
    exact absurd hk h
  · rfl

lemma ordinal_cons (t : Token) (ts : List Token) (x : Token) : ordinal (t::ts) x =
    ordinal ts x+if t.kind = .append ∧ t.pos ≤ x.pos then 1 else 0 := by
  simp [ordinal,List.countP_cons]

/-- Tokens are numbered by their places. -/
lemma Cut.map_numbered {pos : ℕ} {before : Option UInt8} {t : Text} {ts : List Token}
    (h : Cut pos before t ts) (k : ℕ) :
    ts.map (fun x => x.numbered (k+ordinal ts x)) = numberedTexts k ts := by
  induction h generalizing k with
  | nil => rfl
  | blank _ _ ih => exact ih k
  | @token pos before kind w t ts hb hp hc ih =>
    have hlater : ∀ x ∈ ts, pos < x.pos := fun x hx => by
      have hpos := List.length_pos_of_ne_nil hp.ne_nil
      have hle := hc.le_pos x hx
      omega
    have hself : ordinal ts ⟨kind,w,pos⟩ = 0 := by
      refine List.countP_eq_zero.mpr fun x hx => ?_
      simp [hlater x hx]
    rw [List.map_cons,numberedTexts,← ih]
    congr 1
    · by_cases hk : kind = .append
      · rw [ordinal_cons,hself]
        simp [hk]
      · rw [Token.numbered_of_kind hk,Token.numbered_of_kind hk]
    · refine List.map_congr_left fun x hx => ?_
      rw [ordinal_cons]
      simp only [(hlater x hx).le,and_true]
      congr 1
      split <;> omega

/-- The same token elsewhere, or a number for a new column without a label. -/
inductive Token.Numbered (n : ℕ) : Token → Token → Prop
  | same (t : Token) (pos : ℕ) : (t.kind = .append → ∀ cast, t.newColumn ≠ .ok (cast,[])) →
      Numbered n t { t with pos := pos }
  | column {t u : Token} {cast : Cast} : t.kind = .append → u.kind = .append →
      t.newColumn = .ok (cast,[]) →
      u.newColumn = .ok (cast,Text.ofString "_" ++ Text.ofNat n) → Numbered n t u

/-- Tokens behind so many new columns, and the same tokens with numbers. -/
inductive Numbered : ℕ → List Token → List Token → Prop
  | nil {k : ℕ} : Numbered k [] []
  | cons {k : ℕ} {t u : Token} {ts us : List Token} : t.Numbered (k+1) u →
      Numbered (if t.kind = .append then k+1 else k) ts us → Numbered k (t::ts) (u::us)

/-- A word has no white space at its ends. -/
lemma trim_of_isWord {t : Text} (h : ∀ b ∈ t, Text.isWord b = true) : t.trim = t := by
  simpa using Text.trim_surrounded Text.isSpace_nil Text.isSpace_nil fun b hb =>
    Text.isVisible_of_isWord (h b hb)

def labelled (letter : UInt8) (label : Text) : Text :=
  letter::Text.ascii '['::(Text.ascii '+'::label ++ [Text.ascii ']'])

lemma Token.newColumn_labelled {c : UInt8} {cast : Cast} (hc : Cast.ofLetter? c = some cast)
    {label : Text} (hlabel : ∀ b ∈ label, Text.isWord b = true) (pos : ℕ) :
    Token.newColumn ⟨.append,labelled c label,pos⟩ = .ok (cast,label) := by
  have hblank : Text.blankOnly (Text.ascii '+'::label) = false :=
    Text.not_blankOnly_of_mem (b := Text.ascii '+') (by decide) (by simp)
  have happended : appended? (Text.ascii '+'::label) = some label := rfl
  have hquote : label.any Text.isQuote = false := by
    simp only [List.any_eq_false,Bool.not_eq_true]
    exact fun b hb => not_isQuote_of_isWord (hlabel b hb)
  rw [Token.newColumn,labelled,Token.split_bracketed hc hblank]
  simp only [bind,Except.bind,happended,trim_of_isWord hlabel,hquote,Bool.false_eq_true,if_false]

lemma piece_labelled {before : Option UInt8} {c : UInt8} (ho : opensAfter before = true)
    (hc : isCastLetter c = true) {label : Text} (hlabel : ∀ b ∈ label, Text.isWord b = true)
    (rest : Text) : Piece before .append (labelled c label) rest := by
  refine .accessor ho hc ?_ rfl
  simp only [List.mem_cons,not_or]
  refine ⟨by decide,fun hm => ?_⟩
  exact absurd (hlabel _ hm) (by decide)

/-- A piece that is numbered is an accessor for a new column without a label. -/
lemma Piece.numbered {before : Option UInt8} {kind : Kind} {w rest : Text}
    (h : Piece before kind w rest) (pos n : ℕ) :
    Token.numbered n ⟨kind,w,pos⟩ = w ∧
        (kind = .append → ∀ cast, Token.newColumn ⟨kind,w,pos⟩ ≠ .ok (cast,[])) ∨
      ∃ c cast body, opensAfter before = true ∧ isCastLetter c = true ∧
        Cast.ofLetter? c = some cast ∧ kind = .append ∧
        w = c::Text.ascii '['::(body ++ [Text.ascii ']']) ∧
        Token.newColumn ⟨kind,w,pos⟩ = .ok (cast,[]) ∧
        Token.numbered n ⟨kind,w,pos⟩ = labelled c (Text.ofString "_" ++ Text.ofNat n) := by
  by_cases hx : kind = .append ∧ ∃ cast, Token.newColumn ⟨kind,w,pos⟩ = .ok (cast,[])
  · right
    obtain ⟨hk,cast,hnew⟩ := hx
    cases h with
    | @accessor c _ body _ ho hc hbody hkind =>
      refine ⟨c,cast,body,ho,hc,?_,hk,rfl,hnew,?_⟩
      · obtain ⟨own,hs,-⟩ := Token.newColumn_eq_ok hnew
        simp only [Token.split] at hs
        split at hs
        · simp at hs
        · rename_i found hfound
          split_ifs at hs
          simp only [Except.ok.injEq,Prod.mk.injEq] at hs
          rw [hfound,hs.1]
      · have hopen : Text.ofString "[+_" = [Text.ascii '[',Text.ascii '+',Text.ascii '_'] := by
          decide
        have hunder : Text.ofString "_" = [Text.ascii '_'] := by decide
        have hclose : Text.ofString "]" = [Text.ascii ']'] := by decide
        simp only [Token.numbered,hk] at hnew ⊢
        simp [hnew,labelled,hopen,hunder,hclose]
    | operator h =>
      obtain ⟨_,_,_,_,_,_,hno⟩ := operator?_eq_some h
      simp [hk,Kind.isAccessor] at hno
    | run => simp at hk
  · left
    refine ⟨?_,fun hk cast hnew => hx ⟨hk,cast,hnew⟩⟩
    unfold Token.numbered
    split
    · rename_i hk hnew
      exact absurd ⟨hk,_,hnew⟩ hx
    · rfl

/-- A numbered source is cut at the same places. -/
theorem Cut.numbered {f : Token → Text} {pos : ℕ} {before : Option UInt8} {t : Text}
    {ts : List Token} (h : Cut pos before t ts) {k : ℕ} (hf : ts.map f = numberedTexts k ts)
    (pos' : ℕ) : Facing t (inPlaceFrom f pos t ts) ∧
      ∃ us, Cut pos' before (inPlaceFrom f pos t ts) us ∧ Numbered k ts us := by
  induction h generalizing k pos' with
  | nil => exact ⟨.refl _,[],.nil,.nil⟩
  | @blank pos before b t ts hb hc ih =>
    obtain ⟨hface,us,hu,hus⟩ := ih hf (pos'+1)
    rw [inPlaceFrom_blank hc.le_pos]
    exact ⟨hface.append (w := [b]) (by simp),us,.blank hb hu,hus⟩
  | @token pos before kind w t ts hb hp hc ih =>
    rw [List.map_cons,numberedTexts,List.cons.injEq] at hf
    rw [inPlaceFrom_token,hf.1]
    rcases hp.numbered pos (k+1) with ⟨hw,hown⟩ | ⟨c,cast,body,ho,hcast,hletter,rfl,rfl,hnew,hw⟩
    · obtain ⟨hface,us,hu,hus⟩ := ih hf.2 (pos'+w.length)
      rw [hw]
      exact ⟨hface.append hp.ne_nil,⟨kind,w,pos'⟩::us,.token hb (hp.facing hface) hu,
        .cons (.same ⟨kind,w,pos⟩ pos' hown) hus⟩
    · rw [hw]
      have hword := isWord_numbered (k+1)
      generalize hlabel : Text.ofString "_" ++ Text.ofNat (k+1) = label at hword hw ⊢
      obtain ⟨hface,us,hu,hus⟩ := ih hf.2 (pos'+(labelled c label).length)
      have hpiece := piece_labelled ho hcast hword
        (inPlaceFrom f (pos+(c::Text.ascii '['::(body ++ [Text.ascii ']'])).length) t ts)
      have hlast : ∀ body : Text, (c::Text.ascii '['::(body ++ [Text.ascii ']'])).getLast? =
          some (Text.ascii ']') := by
        intro body
        rw [← List.cons_append,← List.cons_append,List.getLast?_concat]
      refine ⟨⟨rfl,by simp [labelled],?_,Or.inr ⟨by simp,by simp [labelled]⟩⟩,
        ⟨.append,labelled c label,pos'⟩::us,.token (by simpa [labelled] using hb) hpiece ?_,?_⟩
      · rw [hpiece.isSome_accessor? rfl,hp.isSome_accessor? rfl]
      · rw [hlast] at hu
        rw [labelled,hlast]
        exact hu
      · refine .cons (.column rfl rfl hnew ?_) hus
        rw [hlabel]
        exact Token.newColumn_labelled hletter hword pos'

def Token.accepted (quoting : Bool) (t : Token) : Bool :=
  match t.kind with
  | .accessor | .ambiguous => (t.field quoting).isOk
  | .append => t.newColumn.isOk
  | _ => true

lemma Draft.isOk_visitStatement (quoting : Bool) (d : Draft) (t : Token) :
    (d.visitStatement quoting t).isOk = t.accepted quoting := by
  rw [visitStatement,Token.accepted]
  cases t.kind with
  | accessor | ambiguous => cases t.field quoting <;> rfl
  | append => cases t.newColumn <;> rfl
  | assignment | separator | passthrough => rfl

lemma Draft.isOk_foldlM (quoting : Bool) (d : Draft) (ts : List Token) :
    (ts.foldlM (visitStatement quoting) d).isOk = ts.all (Token.accepted quoting) := by
  induction ts generalizing d with
  | nil => rfl
  | cons t ts ih =>
    have ht := d.isOk_visitStatement quoting t
    rw [List.foldlM_cons,List.all_cons,← ht]
    cases d.visitStatement quoting t with
    | error e => rfl
    | ok e => exact ih e

/-- A source is accepted when each of its tokens is. -/
lemma isOk_expand (quoting : Bool) (src : Text) :
    (expand .statement quoting src).isOk = (scan src).all (Token.accepted quoting) := by
  rw [← Draft.isOk_foldlM quoting {},expand]
  change Except.isOk (Except.bind ((scan src).foldlM (Draft.visitStatement quoting) {}) _) = _
  cases (scan src).foldlM (Draft.visitStatement quoting) {} <;> rfl

/-- The offset of a token makes no difference to whether it is accepted. -/
lemma Token.accepted_at (quoting : Bool) (t : Token) (pos : ℕ) :
    Token.accepted quoting { t with pos := pos } = t.accepted quoting := by
  have hmono : ∀ (t : Token) (pos : ℕ), t.accepted quoting = true →
      Token.accepted quoting { t with pos := pos } = true := by
    rintro t pos h
    have hfield : (t.field quoting).isOk = true →
        (Token.field quoting { t with pos := pos }).isOk = true := by
      cases hf : t.field quoting with
      | error e => exact fun h => absurd h Bool.false_ne_true
      | ok f => rw [Token.field_at hf pos]; exact id
    have hcolumn : t.newColumn.isOk = true →
        (Token.newColumn { t with pos := pos }).isOk = true := by
      cases hf : t.newColumn with
      | error e => exact fun h => absurd h Bool.false_ne_true
      | ok x => rw [Token.newColumn_at hf pos]; exact id
    obtain ⟨kind,lexeme,pos'⟩ := t
    cases kind with
    | accessor | ambiguous => exact hfield h
    | append => exact hcolumn h
    | assignment | separator | passthrough => rfl
  rw [Bool.eq_iff_iff]
  exact ⟨hmono { t with pos := pos } t.pos,hmono t pos⟩

lemma Token.Numbered.kind {n : ℕ} {t u : Token} (h : t.Numbered n u) : u.kind = t.kind := by
  cases h with
  | same => rfl
  | column ht hu => rw [ht,hu]

lemma Token.Numbered.accepted {quoting : Bool} {n : ℕ} {t u : Token} (h : t.Numbered n u) :
    u.accepted quoting = t.accepted quoting := by
  cases h with
  | same pos => exact Token.accepted_at quoting t pos
  | column ht hu hnew hnew' => simp only [Token.accepted,ht,hu,hnew,hnew',Except.isOk,Except.toBool]

lemma Numbered.all_accepted {quoting : Bool} {k : ℕ} {ts us : List Token} (h : Numbered k ts us) :
    us.all (Token.accepted quoting) = ts.all (Token.accepted quoting) := by
  induction h with
  | nil => rfl
  | cons ht _ ih => rw [List.all_cons,List.all_cons,ih,ht.accepted]

/-- A draft with fragments and new columns in front of its own. -/
def Draft.behind (front headers : List Text) (d : Draft) : Draft :=
  { d with fragments := front ++ d.fragments,newHeaders := headers ++ d.newHeaders }

namespace Draft

variable (front headers : List Text) (d : Draft)

lemma behind_write (w : Text) :
    (d.behind front headers).write w = (d.write w).behind front headers := by
  simp [behind,write]

lemma behind_flush : (d.behind front headers).flush = d.flush.behind front headers := by
  obtain ⟨pending,atTarget,inGroup,fragments,newHeaders⟩ := d
  cases pending with
  | none => rfl
  | some f => exact behind_write front headers ⟨none,atTarget,inGroup,fragments,newHeaders⟩ f.read

lemma behind_pass (w : Text) :
    (d.behind front headers).pass w = (d.pass w).behind front headers := by
  rw [pass,pass,behind_flush,behind_write]

lemma behind_endStatement :
    (d.behind front headers).endStatement = d.endStatement.behind front headers := by
  rw [endStatement,endStatement,behind_flush]
  dsimp only
  rw [behind_write]
  split
  · rename_i h
    rw [if_pos (show d.flush.inGroup = true from h)]
    rfl
  · rename_i h
    rw [if_neg (show ¬ d.flush.inGroup = true from h)]

lemma behind_assign (op : Text) :
    (d.behind front headers).assign op = (d.assign op).behind front headers := by
  obtain ⟨pending,atTarget,inGroup,fragments,newHeaders⟩ := d
  cases pending with
  | none => simp [assign,behind,write]
  | some f =>
    simp only [assign,behind,write]
    split <;> simp

end Draft

/-- What a token does behind other statements, and what it does on its own if new columns get the
same labels there. -/
lemma Draft.visitStatement_behind {quoting : Bool} {front headers : List Text} {d e : Draft}
    {t u : Token} (hkind : u.kind = t.kind) (hsame : t.kind ≠ .append → u.lexeme = t.lexeme)
    (hcolumn : t.kind = .append → ∀ cast own, u.newColumn = .ok (cast,own) → ∃ own',
      t.newColumn = .ok (cast,own') ∧ (d.behind front headers).labelFor own' = d.labelFor own)
    (h : d.visitStatement quoting u = .ok e) :
    (d.behind front headers).visitStatement quoting t = .ok (e.behind front headers) := by
  have haccessor : t.kind = .accessor ∨ t.kind = .ambiguous →
      (d.behind front headers).visitStatement quoting t = .ok (e.behind front headers) := by
    intro hk
    rw [visitStatement_accessor d (by rwa [hkind])] at h
    rw [visitStatement_accessor _ hk]
    cases hf : u.field quoting with
    | error error => simp [hf,Except.map] at h
    | ok f =>
      simp only [hf,Except.map,Except.ok.injEq] at h
      have hf' : t.field quoting = .ok f := by
        have hat := Token.field_at hf t.pos
        rwa [hkind,hsame (by rcases hk with hk | hk <;> simp [hk])] at hat
      rw [hf',← h,behind_flush]
      rfl
  cases hk : t.kind with
  | accessor => exact haccessor (Or.inl hk)
  | ambiguous => exact haccessor (Or.inr hk)
  | append =>
    rw [hk] at hkind
    obtain ⟨cast,own,hc,rfl⟩ := visitStatement_append_eq_ok hkind h
    obtain ⟨own',hc',hlabel⟩ := hcolumn hk cast own hc
    rw [visitStatement_append hk hc',hlabel,behind_flush]
    simp [behind]
  | assignment =>
    simp only [visitStatement,hkind,hk,hsame (by simp [hk]),Except.ok.injEq] at h ⊢
    rw [← h,behind_assign,behind_pass]
    exact (apply_ite (behind front headers) _ _ _).symm
  | separator =>
    simp only [visitStatement,hkind,hk,hsame (by simp [hk]),Except.ok.injEq] at h ⊢
    rw [← h,behind_endStatement,behind_write]
    rfl
  | passthrough =>
    simp only [visitStatement,hkind,hk,hsame (by simp [hk]),Except.ok.injEq] at h ⊢
    rw [← h,behind_pass]

/-- A numbered token does on its own what the token does behind other statements. -/
lemma Token.Numbered.visitStatement {quoting : Bool} {front headers : List Text} {d e : Draft}
    {t u : Token} (h : t.Numbered (headers.length+d.newHeaders.length+1) u)
    (hd : d.visitStatement quoting u = .ok e) (n : ℕ) :
    (d.behind front headers).visitStatement quoting (t.shift n) = .ok (e.behind front headers) := by
  have hown : ∀ (d : Draft) (own : Text), own ≠ [] → d.labelFor own = own := by
    intro d own hne
    simp [Draft.labelFor,hne]
  refine Draft.visitStatement_behind h.kind ?_ ?_ hd
  · intro hk
    cases h with
    | same => rfl
    | column ht => exact absurd ht hk
  · intro hk cast own hnew
    cases h with
    | same pos hlabel =>
      have hne : own ≠ [] := by
        rintro rfl
        exact hlabel hk cast (Token.newColumn_at hnew t.pos)
      exact ⟨own,Token.newColumn_at hnew _,by rw [hown _ own hne,hown _ own hne]⟩
    | column _ _ hnone hnumber =>
      rw [hnew,Except.ok.injEq,Prod.mk.injEq] at hnumber
      obtain ⟨rfl,rfl⟩ := hnumber
      refine ⟨[],Token.newColumn_at hnone _,?_⟩
      rw [hown d _ (isLabel_numbered _).ne_nil,← List.length_append]
      rfl

/-- Every accessor for a new column adds one. -/
lemma Draft.length_newHeaders {quoting : Bool} {d e : Draft} {t : Token}
    (h : d.visitStatement quoting t = .ok e) :
    e.newHeaders.length = if t.kind = .append then d.newHeaders.length+1 else d.newHeaders.length := by
  cases hk : t.kind with
  | append =>
    obtain ⟨cast,own,-,rfl⟩ := visitStatement_append_eq_ok hk h
    simp
  | _ =>
    rcases visitStatement_newHeaders h with hsame | ⟨cast,own,hkind,-⟩
    · simp [hsame]
    · simp [hk] at hkind

/-- Numbered tokens do on their own what the tokens do behind other statements. -/
theorem Numbered.foldlM_behind {quoting : Bool} {k : ℕ} {ts us : List Token}
    (h : Numbered k ts us) {front headers : List Text} {d e : Draft}
    (hk : k = headers.length+d.newHeaders.length)
    (hd : us.foldlM (Draft.visitStatement quoting) d = .ok e) (n : ℕ) :
    (ts.map (Token.shift n)).foldlM (Draft.visitStatement quoting) (d.behind front headers) =
      .ok (e.behind front headers) := by
  induction h generalizing d with
  | nil =>
    obtain rfl : d = e := Except.ok.inj hd
    rfl
  | @cons k t u ts us ht _ ih =>
    rw [List.foldlM_cons] at hd
    cases hx : d.visitStatement quoting u with
    | error error => simp [hx,bind,Except.bind] at hd
    | ok d₁ =>
      rw [hx] at hd
      rw [hk] at ht
      rw [List.map_cons,List.foldlM_cons,ht.visitStatement hx]
      refine ih ?_ hd
      rw [Draft.length_newHeaders hx,ht.kind,hk]
      split <;> omega

lemma glueAll_separator (ws vs : List Text) : glueAll (ws ++ [Text.ascii ';']::vs) =
    glueAll ws ++ (Text.ascii ';'::glueAll vs) := by
  have hsticks : sticks (Text.ascii ';') = false := by decide
  rw [glueAll,List.foldl_append,List.foldl_cons,glue_of_not_sticks (Or.inr ?_),foldl_glue,
    List.getLast?_concat,glueFrom_of_not_sticks hsticks,← glueAll_eq,List.append_assoc]
  · rfl
  · rintro b ⟨⟩
    exact hsticks

/-- A separator ends a statement, and the next one starts anew behind it. -/
lemma Draft.visitStatement_separator (quoting : Bool) (d : Draft) (pos : ℕ) :
    d.visitStatement quoting ⟨.separator,[Text.ascii ';'],pos⟩ =
      .ok (Draft.behind (d.endStatement.fragments ++ [[Text.ascii ';']]) d.endStatement.newHeaders
        {}) := by
  have hpending := d.endStatement_pending
  have hgroup := d.endStatement_inGroup
  simp only [visitStatement,behind,write]
  rw [hpending,hgroup]
  simp

lemma Draft.finish_behind (front headers : List Text) (e : Draft) :
    (e.behind front headers).finish =
      ⟨glueAll (front ++ e.endStatement.fragments),headers ++ e.endStatement.newHeaders⟩ := by
  rw [finish,behind_endStatement]
  rfl

/-- Two sources with a separator between them, of which the first has a closing bracket behind every
opening one and all of its literals closed. They are cut into tokens on their own, they are accepted
if both are, and their expansions follow each other, the new columns of the second one numbered on
from those of the first. -/
theorem expand_sequence (quoting : Bool) {a : Text}
    (hbracket : ∀ p u, a = p ++ Text.ascii '['::u → Text.ascii ']' ∈ u)
    (hliteral : ∀ t ∈ scan a, t.kind = .passthrough → Spot.code.after t.lexeme = .code) (b : Text) :
    scan (a ++ Text.ascii ';'::b) =
      scan a ++ ⟨.separator,[Text.ascii ';'],a.length⟩::(scan b).map (Token.shift (a.length+1)) ∧
    ((expand .statement quoting (a ++ Text.ascii ';'::b)).isOk = true ↔
      (expand .statement quoting a).isOk = true ∧ (expand .statement quoting b).isOk = true) ∧
    ∀ x, expand .statement quoting a = .ok x → (expand .statement quoting b).isOk = true →
      ∃ y, expand .statement quoting (numbered x.newHeaders.length b) = .ok y ∧
        expand .statement quoting (a ++ Text.ascii ';'::b) =
          .ok ⟨x.code ++ Text.ascii ';'::y.code,x.newHeaders ++ y.newHeaders⟩ := by
  have hscan := scan_separator hbracket hliteral b
  refine ⟨hscan,?_,?_⟩
  · have hshift : ((scan b).map (Token.shift (a.length+1))).all (Token.accepted quoting) =
        (scan b).all (Token.accepted quoting) := by
      rw [List.all_map]
      exact congrArg _ (funext fun t => Token.accepted_at quoting t _)
    rw [isOk_expand,isOk_expand,isOk_expand,hscan,List.all_append,List.all_cons,hshift]
    simp [Token.accepted]
  · intro x hx hb
    obtain ⟨d,hd,rfl⟩ := expand_statement_eq_ok hx
    obtain ⟨-,us,hu,hus⟩ := (cut_scan b).numbered
      ((cut_scan b).map_numbered d.finish.newHeaders.length) 0
    have hscan' : scan (numbered d.finish.newHeaders.length b) = us := hu.scanFrom_eq
    have hok : (expand .statement quoting (numbered d.finish.newHeaders.length b)).isOk = true := by
      rw [isOk_expand,hscan',hus.all_accepted,← isOk_expand]
      exact hb
    cases hy : expand .statement quoting (numbered d.finish.newHeaders.length b) with
    | error error =>
      rw [hy] at hok
      exact absurd hok Bool.false_ne_true
    | ok y =>
      obtain ⟨e,he,rfl⟩ := expand_statement_eq_ok hy
      rw [hscan'] at he
      have hfold : (scan (a ++ Text.ascii ';'::b)).foldlM (Draft.visitStatement quoting) {} =
          .ok (e.behind (d.endStatement.fragments ++ [[Text.ascii ';']]) d.endStatement.newHeaders) := by
        rw [hscan,List.foldlM_append,hd]
        change List.foldlM _ d _ = _
        rw [List.foldlM_cons,d.visitStatement_separator]
        exact hus.foldlM_behind rfl he _
      refine ⟨e.finish,rfl,?_⟩
      rw [expand,show Draft.visit .statement quoting = Draft.visitStatement quoting from rfl,hfold]
      change Except.ok (Draft.finish _) = _
      rw [Draft.finish_behind,List.append_assoc,List.singleton_append,glueAll_separator]
      rfl

/-- One new column in front of a separator, and two behind it, of which the second has no label. -/
theorem expand_sequence_columns :
    let a := Text.ofString "s[+] = i[n]"
    let b := Text.ofString "f[+y] += 2; s[ + ] = 'z;'"
    numbered 1 b = Text.ofString "f[+y] += 2; s[+_3] = 'z;'" ∧
    ∃ y, expand .statement true (numbered 1 b) = .ok y ∧
      expand .statement true (a ++ Text.ascii ';'::b) =
        .ok ⟨Text.ofString "row[\"_1\"] = row.int[\"n\"]" ++ Text.ascii ';'::y.code,
          [Text.ofString "_1"] ++ y.newHeaders⟩ := by
  intro a b
  have hbracket : ∀ p u, a = p ++ Text.ascii '['::u → Text.ascii ']' ∈ u := by
    intro p u ha
    have hall : ∀ t ∈ a.tails, t.head? = some (Text.ascii '[') → Text.ascii ']' ∈ t.tail := by
      decide +kernel
    exact hall _ ((List.mem_tails _ _).mpr ⟨p,ha.symm⟩) rfl
  have hliteral : ∀ t ∈ scan a, t.kind = .passthrough → Spot.code.after t.lexeme = .code := by
    decide +kernel
  have hx : expand .statement true a =
      .ok ⟨Text.ofString "row[\"_1\"] = row.int[\"n\"]",[Text.ofString "_1"]⟩ := by decide +kernel
  obtain ⟨y,hy,hab⟩ := (expand_sequence true hbracket hliteral b).2.2 _ hx (by decide +kernel)
  rw [List.length_singleton] at hy
  exact ⟨by decide +kernel,y,hy,hab⟩

end CellScript.Shorthand
