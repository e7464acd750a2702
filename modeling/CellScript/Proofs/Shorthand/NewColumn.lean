import Mathlib
import CellScript.Proofs.Shorthand.Scan
import CellScript.Proofs.Shorthand.Spacing
import CellScript.Proofs.Shorthand.Field
import CellScript.Proofs.Number.Decimal

/-! New columns. Every accessor that creates a column adds its label to the columns of the expansion,
and where it is the target of an assignment its label stands in quotes in front of the equals sign. -/
namespace CellScript.Shorthand

open Script (Spot quoteWith)

/-- A label of a new column: some text without quotes and without a closing bracket. -/
structure IsLabel (n : Text) : Prop where
  ne_nil : n ≠ []
  quote : ∀ b ∈ n, Text.isQuote b = false
  bracket : Text.ascii ']' ∉ n

lemma appended?_subset {body rest : Text} (h : appended? body = some rest) : rest ⊆ body := by
  rw [appended?] at h
  split at h
  · simp at h
  · rename_i b more hb
    simp only [Option.ite_none_right_eq_some,Option.some.injEq] at h
    intro c hc
    have hmem : c ∈ b::more := List.mem_cons_of_mem _ (h.2 ▸ hc)
    rw [← hb] at hmem
    exact List.dropWhile_subset _ hmem

/-- The label of a new column is part of the text between the brackets and has no quotes. -/
lemma Token.newColumn_eq_ok {t : Token} {cast : Cast} {label : Text}
    (h : t.newColumn = .ok (cast,label)) :
    ∃ body, t.split = .ok (cast,body) ∧ label ⊆ body ∧ ∀ b ∈ label, Text.isQuote b = false := by
  rw [Token.newColumn,bind_eq_ok_iff] at h
  obtain ⟨⟨c,body⟩,hs,h⟩ := h
  cases ha : appended? body with
  | none => simp [ha] at h
  | some rest =>
    simp only [ha] at h
    split at h
    · simp at h
    · rename_i hq
      simp only [Except.ok.injEq,Prod.mk.injEq] at h
      obtain ⟨rfl,rfl⟩ := h
      refine ⟨body,hs,fun b hb => appended?_subset ha (Text.trim_subset rest hb),?_⟩
      simpa using hq

/-- The body of an accessor that the source was cut into has no closing bracket. -/
lemma Cut.split_bracket {pos : ℕ} {before : Option UInt8} {src : Text} {ts : List Token}
    (h : Cut pos before src ts) {t : Token} (ht : t ∈ ts) (hk : t.kind = .append) {cast : Cast}
    {body : Text} (hs : t.split = .ok (cast,body)) : Text.ascii ']' ∉ body := by
  induction h with
  | nil => simp at ht
  | blank _ _ ih => exact ih ht
  | @token pos before k w rest ts _ hp _ ih =>
    rcases List.mem_cons.mp ht with rfl | ht
    · cases hp with
      | @accessor c k body' rest _ _ hbracket _ =>
        have hbody : body = body' := by
          have hdrop : ((Text.ascii '['::(body' ++ [Text.ascii ']'])).drop 1).dropLast = body' := by
            simp
          simp only [Token.split] at hs
          split at hs
          · simp at hs
          · split_ifs at hs
            simp only [Except.ok.injEq,Prod.mk.injEq] at hs
            rw [← hs.2,hdrop]
        rwa [hbody]
      | operator ho =>
        obtain rfl : k = .append := hk
        obtain ⟨_,_,-,-,-,-,hkind⟩ := operator?_eq_some ho
        simp [Kind.isAccessor] at hkind
      | run => simp at hk
    · exact ih ht

lemma isWord_numbered (n : ℕ) : ∀ b ∈ Text.ofString "_" ++ Text.ofNat n, Text.isWord b = true := by
  have hunder : Text.ofString "_" = [Text.ascii '_'] := by decide
  intro b hb
  rcases List.mem_append.mp hb with hb | hb
  · rw [hunder,List.mem_singleton] at hb
    rw [hb]
    decide
  · simp [Text.isWord,(Text.isDecimal_ofNat n).2 b hb]

lemma not_isQuote_of_isWord {b : UInt8} (h : Text.isWord b = true) : Text.isQuote b = false := by
  by_contra hq
  obtain ⟨c,rfl,hc⟩ := Script.isQuote_iff.mp (by simpa using hq)
  rcases hc with rfl | rfl <;> exact absurd h (by decide)

lemma isLabel_numbered (n : ℕ) : IsLabel (Text.ofString "_" ++ Text.ofNat n) := by
  have hunder : Text.ofString "_" = [Text.ascii '_'] := by decide
  refine ⟨by simp [hunder],fun b hb => not_isQuote_of_isWord (isWord_numbered n b hb),?_⟩
  intro hb
  exact absurd (isWord_numbered n _ hb) (by decide)

/-- A new column has a label of its own or a number. -/
lemma Draft.isLabel_labelFor (d : Draft) {own : Text} (hq : ∀ b ∈ own, Text.isQuote b = false)
    (hb : Text.ascii ']' ∉ own) : IsLabel (d.labelFor own) := by
  rw [labelFor]
  split
  · exact isLabel_numbered _
  · rename_i hne
    exact ⟨by simpa using hne,hq,hb⟩

/-- A later draft: what was written stays, and the new columns stay in order. -/
structure Draft.Grows (d e : Draft) : Prop where
  fragments : d.fragments <+: e.fragments
  newHeaders : d.newHeaders <+: e.newHeaders

namespace Draft

lemma Grows.refl (d : Draft) : d.Grows d := ⟨List.prefix_rfl,List.prefix_rfl⟩

lemma Grows.trans {d e f : Draft} (h : d.Grows e) (h' : e.Grows f) : d.Grows f :=
  ⟨h.fragments.trans h'.fragments,h.newHeaders.trans h'.newHeaders⟩

lemma grows_write (d : Draft) (w : Text) : d.Grows (d.write w) :=
  ⟨List.prefix_append _ _,List.prefix_rfl⟩

lemma grows_flush (d : Draft) : d.Grows d.flush := by
  rw [flush]
  split
  · exact ⟨List.prefix_append _ _,List.prefix_rfl⟩
  · exact .refl d

lemma grows_pass (d : Draft) (w : Text) : d.Grows (d.pass w) :=
  d.grows_flush.trans (d.flush.grows_write w)

lemma grows_endStatement (d : Draft) : d.Grows d.endStatement := by
  refine d.grows_flush.trans ?_
  rw [endStatement]
  split
  · exact ⟨List.prefix_append _ _,List.prefix_rfl⟩
  · exact .refl _

lemma grows_assign (d : Draft) (op : Text) : d.Grows (d.assign op) := by
  obtain ⟨pending,atTarget,inGroup,fragments,newHeaders⟩ := d
  cases pending with
  | none => exact ⟨List.prefix_append _ _,List.prefix_rfl⟩
  | some f =>
    simp only [assign]
    split
    · exact ⟨List.prefix_append _ _,List.prefix_rfl⟩
    · exact ⟨(List.prefix_append _ _).trans (List.prefix_append _ _),List.prefix_rfl⟩

lemma flush_newHeaders (d : Draft) : d.flush.newHeaders = d.newHeaders := by
  obtain ⟨pending,atTarget,inGroup,fragments,newHeaders⟩ := d
  cases pending <;> rfl

lemma flush_atTarget (d : Draft) : d.flush.atTarget = d.atTarget := by
  obtain ⟨pending,atTarget,inGroup,fragments,newHeaders⟩ := d
  cases pending <;> rfl

@[simp] lemma endStatement_newHeaders (d : Draft) : d.endStatement.newHeaders = d.newHeaders := by
  rw [endStatement]
  split <;> simp [write,flush_newHeaders]

@[simp] lemma assign_newHeaders (d : Draft) (op : Text) :
    (d.assign op).newHeaders = d.newHeaders := by
  obtain ⟨pending,atTarget,inGroup,fragments,newHeaders⟩ := d
  cases pending with
  | none => rfl
  | some f =>
    simp only [assign]
    split <;> rfl

/-- An accessor for a new column adds its label and waits for what follows it. -/
lemma visitStatement_append {quoting : Bool} {d : Draft} {t : Token} {cast : Cast} {own : Text}
    (hk : t.kind = .append) (h : t.newColumn = .ok (cast,own)) :
    d.visitStatement quoting t = .ok { d.flush with
      pending := some ⟨cast,Text.ofString "\"" ++ d.labelFor own ++ Text.ofString "\""⟩
      newHeaders := d.newHeaders ++ [d.labelFor own] } := by
  rw [visitStatement,hk]
  simp only [h]
  rfl

lemma visitStatement_append_eq_ok {quoting : Bool} {d e : Draft} {t : Token} (hk : t.kind = .append)
    (h : d.visitStatement quoting t = .ok e) : ∃ cast own, t.newColumn = .ok (cast,own) ∧
      e = { d.flush with
        pending := some ⟨cast,Text.ofString "\"" ++ d.labelFor own ++ Text.ofString "\""⟩
        newHeaders := d.newHeaders ++ [d.labelFor own] } := by
  cases hc : t.newColumn with
  | error error => simp [visitStatement,hk,hc,bind,Except.bind] at h
  | ok x => exact ⟨x.1,x.2,rfl,Except.ok.inj (h.symm.trans (visitStatement_append hk hc))⟩

lemma visitStatement_accessor_eq_ok {quoting : Bool} {d e : Draft} {t : Token}
    (hk : t.kind = .accessor ∨ t.kind = .ambiguous) (h : d.visitStatement quoting t = .ok e) :
    ∃ f, t.field quoting = .ok f ∧ e = { d.flush with pending := some f } := by
  rcases hk with hk | hk <;>
  · rw [visitStatement,hk] at h
    obtain ⟨f,hf,h⟩ := bind_eq_ok_iff.mp h
    exact ⟨f,hf,(Except.ok.inj h).symm⟩

/-- What one token does to the columns: only a new column adds one, with its label. -/
lemma visitStatement_newHeaders {quoting : Bool} {d e : Draft} {t : Token}
    (h : d.visitStatement quoting t = .ok e) :
    e.newHeaders = d.newHeaders ∨ ∃ cast own, t.kind = .append ∧ t.newColumn = .ok (cast,own) ∧
      e.newHeaders = d.newHeaders ++ [d.labelFor own] := by
  cases hk : t.kind with
  | accessor | ambiguous =>
    obtain ⟨f,-,rfl⟩ := visitStatement_accessor_eq_ok (by simp [hk]) h
    exact Or.inl d.flush_newHeaders
  | append =>
    obtain ⟨cast,own,hc,rfl⟩ := visitStatement_append_eq_ok hk h
    exact Or.inr ⟨cast,own,rfl,hc,rfl⟩
  | assignment =>
    simp only [visitStatement,hk,Except.ok.injEq] at h
    left
    rw [← h]
    split <;> simp [pass,write,flush_newHeaders]
  | separator | passthrough =>
    simp only [visitStatement,hk,Except.ok.injEq] at h
    left
    simp [← h,pass,write,flush_newHeaders]

lemma grows_visitStatement {quoting : Bool} {d e : Draft} {t : Token}
    (h : d.visitStatement quoting t = .ok e) : d.Grows e := by
  cases hk : t.kind with
  | accessor | ambiguous =>
    obtain ⟨f,-,rfl⟩ := visitStatement_accessor_eq_ok (by simp [hk]) h
    exact ⟨d.grows_flush.fragments,d.grows_flush.newHeaders⟩
  | append =>
    obtain ⟨cast,own,-,rfl⟩ := visitStatement_append_eq_ok hk h
    exact ⟨d.grows_flush.fragments,List.prefix_append _ _⟩
  | assignment =>
    simp only [visitStatement,hk,Except.ok.injEq] at h
    rw [← h]
    split
    · exact d.grows_assign _
    · exact d.grows_pass _
  | separator =>
    simp only [visitStatement,hk,Except.ok.injEq] at h
    have hgrows := d.grows_endStatement.trans (d.endStatement.grows_write t.lexeme)
    rw [← h]
    exact ⟨hgrows.fragments,hgrows.newHeaders⟩
  | passthrough =>
    simp only [visitStatement,hk,Except.ok.injEq] at h
    rw [← h]
    exact d.grows_pass _

/-- What every token of a source keeps, its draft keeps. -/
lemma foldlM_invariant {quoting : Bool} {P : Draft → Prop} {ts : List Token}
    (hstep : ∀ t ∈ ts, ∀ d e, P d → visitStatement quoting d t = .ok e → P e) {d e : Draft}
    (hd : P d) (h : ts.foldlM (visitStatement quoting) d = .ok e) : P e := by
  induction ts generalizing d with
  | nil =>
    obtain rfl : d = e := Except.ok.inj h
    exact hd
  | cons t ts ih =>
    rw [List.foldlM_cons,bind_eq_ok_iff] at h
    obtain ⟨f,ht,h⟩ := h
    exact ih (fun u hu => hstep u (by simp [hu])) (hstep t (by simp) d f hd ht) h

lemma grows_foldlM {quoting : Bool} {ts : List Token} {d e : Draft}
    (h : ts.foldlM (visitStatement quoting) d = .ok e) : d.Grows e :=
  foldlM_invariant (P := d.Grows) (fun _ _ _ _ hf hstep => hf.trans (grows_visitStatement hstep))
    (.refl d) h

/-- A token leaves labels behind it, if the body of an accessor has no closing bracket. -/
lemma isLabel_visitStatement {quoting : Bool} {d e : Draft} {t : Token}
    (ht : t.kind = .append → ∀ cast body, t.split = .ok (cast,body) → Text.ascii ']' ∉ body)
    (hd : ∀ label ∈ d.newHeaders, IsLabel label) (h : d.visitStatement quoting t = .ok e) :
    ∀ label ∈ e.newHeaders, IsLabel label := by
  rcases visitStatement_newHeaders h with he | ⟨cast,own,hk,hc,he⟩
  · rwa [he]
  · obtain ⟨body,hs,hsub,hq⟩ := Token.newColumn_eq_ok hc
    intro label hl
    rw [he,List.mem_append,List.mem_singleton] at hl
    rcases hl with hl | rfl
    · exact hd label hl
    · exact d.isLabel_labelFor hq fun hm => ht hk cast body hs (hsub hm)

end Draft

lemma expand_statement_eq_ok {quoting : Bool} {src : Text} {x : Expansion}
    (h : expand .statement quoting src = .ok x) :
    ∃ d, (scan src).foldlM (Draft.visitStatement quoting) {} = .ok d ∧ x = d.finish := by
  rw [expand,bind_eq_ok_iff] at h
  obtain ⟨d,hd,h⟩ := h
  exact ⟨d,hd,(Except.ok.inj h).symm⟩

/-- Every new column of a statement has a label. -/
theorem isLabel_of_expand {quoting : Bool} {src : Text} {x : Expansion}
    (h : expand .statement quoting src = .ok x) : ∀ label ∈ x.newHeaders, IsLabel label := by
  obtain ⟨d,hd,rfl⟩ := expand_statement_eq_ok h
  have hlabels := Draft.foldlM_invariant (P := fun d => ∀ label ∈ d.newHeaders, IsLabel label)
    (fun t ht _ _ => Draft.isLabel_visitStatement fun hk _ _ hs =>
      (cut_scan src).split_bracket ht hk hs) (by simp) hd
  simpa [Draft.finish] using hlabels

/-- An accessor for a new column as the target of an assignment: the code that stands in front of it,
and the label of the column. -/
def Appends (quoting : Bool) (src front label : Text) : Prop :=
  ∃ ts t u us d cast own, scan src = ts ++ t::u::us ∧
    ts.foldlM (Draft.visitStatement quoting) {} = .ok d ∧ d.atTarget = true ∧
    t.kind = .append ∧ u.kind = .assignment ∧ t.newColumn = .ok (cast,own) ∧
    label = d.labelFor own ∧ glue (glueAll d.flush.fragments) rowName = front ++ rowName

/-- The target of an assignment is written in front of an equals sign. -/
lemma Draft.assign_fragments {d : Draft} {f : Field} (h : d.pending = some f) (op : Text) :
    d.fragments ++ [f.target ++ Text.ofString " = "] <+: (d.assign op).fragments := by
  obtain ⟨pending,atTarget,inGroup,fragments,newHeaders⟩ := d
  obtain rfl : pending = some f := h
  simp only [assign]
  split
  · exact List.prefix_rfl
  · exact List.prefix_append _ _

lemma glueAll_append_cons (ws vs : List Text) (w : Text) :
    ∃ back, glueAll (ws ++ w::vs) = glue (glueAll ws) w ++ back := by
  refine ⟨glueFrom (glue (glueAll ws) w).getLast? vs,?_⟩
  rw [glueAll,List.foldl_append,List.foldl_cons,foldl_glue]
  rfl

lemma glue_append {code w front : Text} (hw : w ≠ []) (h : glue code w = front ++ w) (v : Text) :
    glue code (w ++ v) = front ++ (w ++ v) := by
  have hhead : (w ++ v).head? = w.head? := List.head?_append_of_ne_nil _ hw
  rw [glue_eq,← List.append_assoc] at h ⊢
  have hfront := List.append_cancel_right h
  rw [joint,hhead]
  rw [joint] at hfront
  rw [← hfront]

/-- An accessor for a new column and an assignment operator behind it, which is the first one of its
statement. -/
lemma Draft.visitStatement_target {quoting : Bool} {d : Draft} {t u : Token} {cast : Cast}
    {own : Text} (hd : d.atTarget = true) (ht : t.kind = .append) (hu : u.kind = .assignment)
    (hc : t.newColumn = .ok (cast,own)) :
    ∃ e, [t,u].foldlM (visitStatement quoting) d = .ok e ∧ d.labelFor own ∈ e.newHeaders ∧
      d.flush.fragments ++ [Field.target ⟨cast,quoteWith (Text.ascii '"') (d.labelFor own)⟩ ++
        Text.ofString " = "] <+: e.fragments := by
  have hquoted : Text.ofString "\"" ++ d.labelFor own ++ Text.ofString "\"" =
      quoteWith (Text.ascii '"') (d.labelFor own) := by
    have hquote : Text.ofString "\"" = [Text.ascii '"'] := by decide
    simp [quoteWith,hquote]
  obtain ⟨c,hc,hpending,hfragments,hheaders,htarget⟩ : ∃ c, d.visitStatement quoting t = .ok c ∧
      c.pending = some ⟨cast,quoteWith (Text.ascii '"') (d.labelFor own)⟩ ∧
      c.fragments = d.flush.fragments ∧ c.newHeaders = d.newHeaders ++ [d.labelFor own] ∧
      c.atTarget = true := by
    refine ⟨_,visitStatement_append ht hc,?_,rfl,rfl,d.flush_atTarget.trans hd⟩
    rw [hquoted]
  refine ⟨c.assign u.lexeme,?_,by simp [hheaders],hfragments ▸ assign_fragments hpending u.lexeme⟩
  have hassign : c.visitStatement quoting u = .ok (c.assign u.lexeme) := by
    rw [visitStatement,hu]
    simp only [htarget,if_true]
  simp only [List.foldlM_cons,List.foldlM_nil,hc,hassign,bind,Except.bind,pure,Except.pure]

/-- A new column that is assigned to is among the columns of the expansion, and the cell with its
label in quotes stands in front of an equals sign. -/
theorem expand_appends {quoting : Bool} {src front label : Text} {x : Expansion}
    (h : expand .statement quoting src = .ok x) (ha : Appends quoting src front label) :
    label ∈ x.newHeaders ∧ ∃ back, x.code = front ++
      (Script.cellText none (quoteWith (Text.ascii '"') label) ++ (Text.ofString " = " ++ back)) := by
  obtain ⟨ts,t,u,us,d,cast,own,hscan,hd,htarget,ht,hu,hc,rfl,hfront⟩ := ha
  obtain ⟨e,he,hlabel,hwritten⟩ := @Draft.visitStatement_target quoting d t u cast own htarget ht hu hc
  obtain ⟨g,hg,rfl⟩ := expand_statement_eq_ok h
  have hrow : rowName = Text.ofString "row" := rfl
  have hsplit : scan src = ts ++ ([t,u] ++ us) := hscan
  rw [hsplit,List.foldlM_append,hd] at hg
  change ([t,u] ++ us).foldlM (Draft.visitStatement quoting) d = _ at hg
  rw [List.foldlM_append,he] at hg
  have hgrows : e.Grows g.endStatement :=
    (Draft.grows_foldlM (d := e) hg).trans g.grows_endStatement
  obtain ⟨more,hmore⟩ := hwritten.trans hgrows.fragments
  rw [List.append_assoc,List.singleton_append] at hmore
  obtain ⟨back,hback⟩ := glueAll_append_cons d.flush.fragments more
    (Field.target ⟨cast,quoteWith (Text.ascii '"') (d.labelFor own)⟩ ++ Text.ofString " = ")
  refine ⟨hgrows.newHeaders.subset hlabel,back,?_⟩
  change glueAll g.endStatement.fragments = _
  rw [hrow] at hfront
  rw [← hmore,hback,Field.target_eq,Script.cellText,List.append_assoc,
    glue_append (by decide) hfront]
  simp

end CellScript.Shorthand
