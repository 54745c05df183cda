import GoTemplate.Proofs.Syntax.BareSource
import GoTemplate.Proofs.Syntax.Reduction
import Mathlib.Data.List.Forall2

/-!
Readers that go side by side, the one on tokens and the other on what is left of them when statements
are taken out and the others keep their kinds. The second succeeds where the first does: the lexemes
are recorded in what is read, and decide nothing. What they read is not the same, of course; related
is only as much of it as later decisions depend on.
-/

namespace GoTemplate

open Brackets

namespace Cursor

/-- Places from which the tokens of the one are left of those of the other. -/
structure Alike (c d : Cursor) : Prop where
  reduces : Reduces c.rest d.rest
  left : c.IsProper
  right : d.IsProper

/-- As `Alike`, where a statement may start. -/
structure AlikeAtStatement (c d : Cursor) : Prop where
  reduces : ReducesAtStatement c.rest d.rest
  left : c.IsProper
  right : d.IsProper

variable {c d : Cursor}

theorem IsProper.tail (hc : c.IsProper) {previous : Span} {t : Token} {rest : List Token}
    (hRest : c.rest = t :: rest) : Cursor.IsProper ⟨previous, rest, c.stop⟩ where
  stop_kind := hc.stop_kind
  rest_kind u hu := hc.rest_kind u (hRest ▸ List.mem_cons_of_mem t hu)

theorem IsProper.after (hc : c.IsProper) {previous : Span} {word rest : List Token}
    (hRest : c.rest = word ++ rest) : Cursor.IsProper ⟨previous, rest, c.stop⟩ where
  stop_kind := hc.stop_kind
  rest_kind u hu := hc.rest_kind u (hRest ▸ List.mem_append_right word hu)

theorem advance_length_le (c : Cursor) : c.advance.rest.length ≤ c.rest.length := by
  obtain ⟨previous, rest, stop⟩ := c
  cases rest with
  | nil => exact Nat.le_refl _
  | cons t rest => exact Nat.le_succ _

namespace Alike

theorem atStatement (h : c.Alike d) : c.AlikeAtStatement d :=
  ⟨h.reduces.atStatement, h.left, h.right⟩

theorem kind_eq (h : c.Alike d) : c.kind = d.kind := by
  rw [Parser.kind_eq h.left, Parser.kind_eq h.right, h.reduces.nextKind_eq]

/-- As long as no statement may start, the tokens to come are of the same kinds. -/
theorem kindAt_eq (h : c.Alike d) (i : Nat)
    (hInside : ∀ j < i, (c.kindAt j).opensStatement = false) : c.kindAt i = d.kindAt i := by
  have hDrop := h.reduces.drop i fun j hj => by
    rw [← Parser.kindAt_eq h.left]
    exact hInside j hj
  rw [Parser.kindAt_eq h.left, Parser.kindAt_eq h.right, hDrop.nextKind_eq]

/-- The next token is taken. -/
theorem advance_atStatement (h : c.Alike d) : c.advance.AlikeAtStatement d.advance := by
  obtain ⟨previous, rest, stop⟩ := c
  obtain ⟨previous', rest', stop'⟩ := d
  cases rest with
  | nil =>
      obtain rfl : rest' = [] := List.length_eq_zero_iff.1 (Nat.le_zero.1 h.reduces.length_le)
      exact h.atStatement
  | cons t rest =>
      obtain ⟨u, rest', rfl, -, hRest, -⟩ := h.reduces.exists_cons
      exact ⟨hRest, h.left.tail rfl, h.right.tail rfl⟩

theorem advance (h : c.Alike d) (hInside : c.kind.opensStatement = false) :
    c.advance.Alike d.advance := by
  obtain ⟨previous, rest, stop⟩ := c
  obtain ⟨previous', rest', stop'⟩ := d
  cases rest with
  | nil =>
      obtain rfl : rest' = [] := List.length_eq_zero_iff.1 (Nat.le_zero.1 h.reduces.length_le)
      exact h
  | cons t rest =>
      obtain ⟨u, rest', rfl, -, -, hRest⟩ := h.reduces.exists_cons
      exact ⟨hRest hInside, h.left.tail rfl, h.right.tail rfl⟩

end Alike

theorem AlikeAtStatement.length_le (h : c.AlikeAtStatement d) : d.rest.length ≤ c.rest.length := by
  obtain ⟨word, rest, hSplit, -, hRest⟩ := h.reduces
  have hLess := hRest.length_le
  rw [hSplit, List.length_append]
  omega

end Cursor

namespace Parser

open Cursor

/-! ## Readers that succeed together -/

variable {α β γ δ : Type}

/-- From related places, with less than `n` tokens to come, `q` succeeds where `p` does. What they
read is related, and so are the places to which they come. -/
def Tracks (n : Nat) (Pre : Cursor → Cursor → Prop) (p : Parser α) (q : Parser β)
    (R : α → β → Prop) (Post : Cursor → Cursor → Prop) : Prop :=
  ∀ c d a c', Pre c d → c.rest.length < n → p c = .ok (a, c') →
    ∃ b d', q d = .ok (b, d') ∧ R a b ∧ Post c' d' ∧ c'.rest.length ≤ c.rest.length

/-- The reader succeeds on what is left of tokens. Nothing is said of what it reads. -/
abbrev Follows (n : Nat) (p : Parser α) (q : Parser β) : Prop :=
  Tracks n Alike p q (fun _ _ => True) Alike

section

variable {n : Nat} {Pre Mid Post : Cursor → Cursor → Prop} {Start : Cursor → Prop} {p : Parser α}
  {q : Parser β} {R : α → β → Prop} {S : γ → δ → Prop} {F : α → Parser γ} {G : β → Parser δ}

private theorem Tracks.bind_of_length {m : Nat} (hp : Tracks m Pre p q R Mid)
    (hLength : ∀ c d a c', Pre c d → p c = .ok (a, c') → c'.rest.length ≤ c.rest.length →
      c.rest.length < m → c'.rest.length < n)
    (hF : ∀ a b, R a b → Tracks n Mid (F a) (G b) S Post) :
    Tracks m Pre (p >>= F) (q >>= G) S Post := by
  intro c d x c'' hPre hm hRun
  obtain ⟨a, c', hFirst, hSecond⟩ := bind_eq_ok.1 hRun
  obtain ⟨b, d', hFirst', hab, hMid, hLess⟩ := hp c d a c' hPre hm hFirst
  have hn := hLength c d a c' hPre hFirst hLess hm
  obtain ⟨y, d'', hSecond', hxy, hPost, hLess'⟩ := hF a b hab c' d' x c'' hMid hn hSecond
  exact ⟨y, d'', bind_eq_ok.2 ⟨b, d', hFirst', hSecond'⟩, hxy, hPost, Nat.le_trans hLess' hLess⟩

theorem Tracks.bind (hp : Tracks n Pre p q R Mid)
    (hF : ∀ a b, R a b → Tracks n Mid (F a) (G b) S Post) :
    Tracks n Pre (p >>= F) (q >>= G) S Post :=
  hp.bind_of_length (fun _ _ _ _ _ _ => Nat.lt_of_le_of_lt) hF

/-- After a token has been taken, there is one less to come. -/
theorem Tracks.bind_takes (hp : Tracks (n + 1) Pre p q R Mid)
    (hStart : ∀ c d, Pre c d → c.stop.kind = .endOfSource ∧ Start c) (hTakes : TakesToken Start p)
    (hF : ∀ a b, R a b → Tracks n Mid (F a) (G b) S Post) :
    Tracks (n + 1) Pre (p >>= F) (q >>= G) S Post := by
  apply hp.bind_of_length _ hF
  intro c d a c' hPre hRun _ hn
  obtain ⟨hStop, hs⟩ := hStart c d hPre
  have hLess := hTakes c a c' hStop hs hRun
  omega

theorem Tracks.pre {Pre' : Cursor → Cursor → Prop} (h : Tracks n Pre p q R Post)
    (hPre : ∀ c d, Pre' c d → Pre c d) : Tracks n Pre' p q R Post :=
  fun c d a c' hPre' hn hRun => h c d a c' (hPre c d hPre') hn hRun

theorem Tracks.post {R' : α → β → Prop} {Post' : Cursor → Cursor → Prop}
    (h : Tracks n Pre p q R Post) (hR : ∀ a b, R a b → R' a b)
    (hPost : ∀ c d, Post c d → Post' c d) : Tracks n Pre p q R' Post' := by
  intro c d a c' hPre hn hRun
  obtain ⟨b, d', hRun', hab, hEnd, hLess⟩ := h c d a c' hPre hn hRun
  exact ⟨b, d', hRun', hR a b hab, hPost c' d' hEnd, hLess⟩

theorem Tracks.from (h : Tracks n Alike p q R Post) :
    Tracks n (fun c d => c.Alike d ∧ Start c) p q R Post :=
  h.pre fun _ _ hs => hs.1

theorem tracks_pure {a : α} {b : β} (h : R a b) :
    Tracks n Pre (pure a : Parser α) (pure b) R Pre := by
  intro c d _ _ hPre _ hRun
  cases hRun
  exact ⟨b, d, rfl, h, hPre, Nat.le_refl _⟩

theorem Tracks.map {f : α → γ} {g : β → δ} (h : Tracks n Pre p q R Post)
    (hS : ∀ a b, R a b → S (f a) (g b)) : Tracks n Pre (f <$> p) (g <$> q) S Post := by
  change Tracks n Pre (p >>= fun a => pure (f a)) (q >>= fun b => pure (g b)) S Post
  exact h.bind fun a b hab => tracks_pure (hS a b hab)

/-- Readers that go by a look-ahead. -/
theorem tracks_look {ε : Type} {g : Cursor → ε} {F : ε → Parser α} {G : ε → Parser β}
    (hg : ∀ c d, Pre c d → g c = g d)
    (hF : ∀ e, Tracks n (fun c d => Pre c d ∧ g c = e) (F e) (G e) R Post) :
    Tracks n Pre (look g >>= F) (look g >>= G) R Post := by
  intro c d a c' hPre hn hRun
  have hLook := hF (g c) c d a c' ⟨hPre, rfl⟩ hn hRun
  rw [hg c d hPre] at hLook
  exact hLook

theorem tracks_kind_bind {F : TokenKind → Parser α} {G : TokenKind → Parser β}
    (hF : ∀ k, Tracks n (fun c d => c.Alike d ∧ c.kind = k) (F k) (G k) R Post) :
    Tracks n Alike (kind >>= F) (kind >>= G) R Post :=
  tracks_look (fun _ _ hAlike => hAlike.kind_eq) hF

theorem tracks_here : Tracks n Pre here here (fun _ _ => True) Pre := by
  intro c d _ _ hPre _ hRun
  cases hRun
  exact ⟨_, d, rfl, trivial, hPre, Nat.le_refl _⟩

theorem tracks_spanFrom (start start' : Span) :
    Tracks n Pre (spanFrom start) (spanFrom start') (fun _ _ => True) Pre := by
  intro c d _ _ hPre _ hRun
  cases hRun
  exact ⟨_, d, rfl, trivial, hPre, Nat.le_refl _⟩

theorem tracks_reject (fault : TokenKind → SyntaxFault) (q : Parser β) :
    Tracks n Pre (reject fault : Parser α) q R Post := by
  intro c d _ _ _ _ hRun
  cases hRun

/-- A check that takes nothing. -/
theorem tracks_lift {r : Except SyntaxError α} {r' : Except SyntaxError β}
    (h : ∀ a, r = .ok a → ∃ b, r' = .ok b ∧ R a b) :
    Tracks n Pre (liftM r : Parser α) (liftM r') R Pre := by
  intro c d a c' hPre _ hRun
  cases r with
  | error e => cases hRun
  | ok a =>
      cases hRun
      obtain ⟨b, rfl, hab⟩ := h a rfl
      exact ⟨b, d, rfl, hab, hPre, Nat.le_refl _⟩

end

/-! ## Readers of one token -/

section

variable {n : Nat} {k : TokenKind} {p : Parser α} {q : Parser β} {R : α → β → Prop}

theorem tracks_take_statement : Tracks n Alike take take (fun _ _ => True) AlikeAtStatement := by
  intro c d _ _ hAlike _ hRun
  cases hRun
  exact ⟨_, _, rfl, trivial, hAlike.advance_atStatement, c.advance_length_le⟩

theorem tracks_take (hk : k.opensStatement = false) :
    Tracks n (fun c d => c.Alike d ∧ c.kind = k) take take (fun _ _ => True) Alike := by
  rintro c d _ _ ⟨hAlike, rfl⟩ _ hRun
  cases hRun
  exact ⟨_, _, rfl, trivial, hAlike.advance hk, c.advance_length_le⟩

theorem tracks_expect_statement :
    Tracks n Alike (expect k) (expect k) (fun _ _ => True) AlikeAtStatement := by
  apply tracks_kind_bind
  intro found
  split
  · exact tracks_take_statement.from
  · exact tracks_reject _ _

theorem follows_expect (hk : k.opensStatement = false) : Follows n (expect k) (expect k) := by
  apply tracks_kind_bind
  intro found
  split
  · rename_i hFound
    exact tracks_take (hFound ▸ hk)
  · exact tracks_reject _ _

theorem tracks_eat (hk : k.opensStatement = false) : Tracks n Alike (eat k) (eat k) Eq Alike := by
  apply tracks_kind_bind
  intro found
  split
  · rename_i hFound
    exact (tracks_take (hFound ▸ hk)).bind fun _ _ _ => tracks_pure rfl
  · exact (tracks_pure rfl).from

theorem tracks_ifNext {otherwise : α} {otherwise' : β} (hp : Tracks n Alike p q R Alike)
    (h : R otherwise otherwise') :
    Tracks n Alike (ifNext k p otherwise) (ifNext k q otherwise') R Alike := by
  apply tracks_kind_bind
  intro found
  split
  · exact hp.from
  · exact (tracks_pure h).from

theorem follows_identifier : Follows n identifier identifier := by
  apply tracks_kind_bind
  intro found
  split
  · rename_i hFound
    exact (tracks_take (hFound ▸ rfl)).bind fun _ _ _ => tracks_pure trivial
  · exact tracks_reject _ _

theorem tracks_statementEnd :
    Tracks n Alike statementEnd statementEnd (fun _ _ => True) AlikeAtStatement := by
  have hNothing : Tracks n Alike (pure () : Parser Unit) (pure ()) (fun _ _ => True)
      AlikeAtStatement :=
    (tracks_pure (R := fun _ _ => True) trivial).post (fun _ _ _ => trivial) fun _ _ => (·.atStatement)
  apply tracks_kind_bind
  intro found
  split
  · exact tracks_take_statement.from.bind fun _ _ _ => tracks_pure trivial
  · exact hNothing.from
  · exact hNothing.from
  · exact hNothing.from
  · exact tracks_reject _ _

end

/-! ## Loops -/

section

variable {n : Nat} {item : Parser α} {R : α → α → Prop}

theorem length_lt_of_reads {Start : Cursor → Prop} {W : α → List Token → List Token → Prop}
    (hp : ReadsFrom n Start item W) (hW : ∀ a w r, W a w r → w ≠ []) {c c' : Cursor} {a : α}
    (hc : c.IsProper) (hn : c.rest.length < n) (hs : Start c) (hRun : item c = .ok (a, c')) :
    c'.rest.length < c.rest.length := by
  obtain ⟨w, hTakes, hWord⟩ := hp c a c' hc hn hs hRun
  have hPos := List.length_pos_iff.2 (hW a w _ hWord)
  have hLength := hTakes.length_eq
  omega

theorem follows_sepBy {separator : TokenKind} (hSeparator : separator.isInner)
    (hReads : Reads n item fun _ w _ => Phrase w) (hItem : Tracks n Alike item item R Alike) :
    Follows n (sepBy separator item) (sepBy separator item) := by
  have hInside : separator.opensStatement = false := by
    cases separator <;> first | rfl | cases hSeparator
  have hMore : ReadsFrom n (fun c => decide (c.kind = separator) = true)
      (do let _ ← take; item) fun _ w _ => w ≠ [] := by
    refine ((reads_take (ne_endOfSource_of_isInner hSeparator)).mono
      (fun c h => ⟨trivial, of_decide_eq_true h⟩) fun _ _ _ h => h).bind (fun _ => hReads) ?_
    rintro t a _ v _ ⟨rfl, -⟩ -
    exact List.cons_ne_nil t v
  have hNext : Tracks n (fun c d => c.Alike d ∧ c.kind = separator) (do let _ ← take; item)
      (do let _ ← take; item) (fun _ _ => True) Alike :=
    (tracks_take hInside).bind fun _ _ _ => hItem.post (fun _ _ _ => trivial) fun _ _ h => h
  have hOthers : Follows n (manyWhile (fun k => decide (k = separator)) (do let _ ← take; item))
      (manyWhile (fun k => decide (k = separator)) (do let _ ← take; item)) := by
    intro c d as c' hAlike hn hRun
    fun_induction manyWhile (fun k => decide (k = separator)) (do let _ ← take; item) c
      generalizing d as c' with
    | case1 => cases hRun
    | case2 c hKind a next hFirst hLess ih =>
        obtain ⟨b, next', hFirst', -, hAfter, -⟩ :=
          hNext c d a next ⟨hAlike, of_decide_eq_true hKind⟩ hn hFirst
        cases hTail : manyWhile (fun k => decide (k = separator)) (do let _ ← take; item) next with
        | error e => rw [hTail] at hRun; cases hRun
        | ok result =>
            obtain ⟨others, last⟩ := result
            rw [hTail] at hRun
            cases hRun
            obtain ⟨others', last', hTail', -, hLast, hLastLess⟩ :=
              ih next' others _ hAfter (Nat.lt_trans hLess hn) hTail
            have hKind' : decide (d.kind = separator) = true := by rwa [← hAlike.kind_eq]
            have hLess' : next'.rest.length < d.rest.length :=
              length_lt_of_reads hMore (fun _ _ _ h => h) hAlike.right
                (Nat.lt_of_le_of_lt hAlike.reduces.length_le hn) hKind' hFirst'
            refine ⟨b :: others', last', ?_, trivial, hLast, Nat.le_trans hLastLess hLess.le⟩
            rw [manyWhile, if_pos hKind', hFirst']
            dsimp only
            rw [dif_pos hLess', hTail']
            rfl
    | case3 c hKind a next hFirst hLess =>
        exact absurd (length_lt_of_reads hMore (fun _ _ _ h => h) hAlike.left hn hKind hFirst) hLess
    | case4 c hKind =>
        cases hRun
        refine ⟨[], d, ?_, trivial, hAlike, Nat.le_refl _⟩
        rw [manyWhile, ← hAlike.kind_eq, if_neg hKind]
  exact hItem.bind fun _ _ _ => hOthers.bind fun _ _ _ => tracks_pure trivial

theorem tracks_commaList (close : TokenKind) (hReads : Reads n item fun _ w _ => Phrase w)
    (hItem : Tracks n Alike item item R Alike) :
    Tracks n Alike (commaList close item) (commaList close item) (List.Forall₂ R) Alike := by
  have hTakes {c next : Cursor} {a : α} (hc : c.IsProper) (hn : c.rest.length < n)
      (hFirst : item c = .ok (a, next)) : next.advance.rest.length < c.rest.length :=
    Nat.lt_of_le_of_lt next.advance_length_le
      (length_lt_of_reads hReads (fun _ _ _ h => h.ne_nil) hc hn trivial hFirst)
  intro c d as c' hAlike hn hRun
  fun_induction commaList close item c generalizing d as c' with
  | case1 => cases hRun
  | case2 c a next hFirst hComma hClose =>
      cases hRun
      obtain ⟨b, next', hFirst', hab, hNext, hLess⟩ := hItem c d a next hAlike hn hFirst
      have hAfter := hNext.advance (by rw [hComma]; rfl)
      refine ⟨[b], next'.advance, ?_, .cons hab .nil, hAfter,
        Nat.le_trans next.advance_length_le hLess⟩
      rw [commaList, hFirst']
      dsimp only
      rw [← hNext.kind_eq, if_pos hComma, ← hAfter.kind_eq, if_pos hClose]
  | case3 c a next hFirst hComma hClose hLess ih =>
      obtain ⟨b, next', hFirst', hab, hNext, -⟩ := hItem c d a next hAlike hn hFirst
      have hAfter := hNext.advance (by rw [hComma]; rfl)
      cases hTail : commaList close item next.advance with
      | error e => rw [hTail] at hRun; cases hRun
      | ok result =>
          obtain ⟨others, last⟩ := result
          rw [hTail] at hRun
          cases hRun
          obtain ⟨others', last', hTail', hOthers, hLast, hLastLess⟩ :=
            ih next'.advance others _ hAfter (Nat.lt_trans hLess hn) hTail
          have hLess' : next'.advance.rest.length < d.rest.length :=
            hTakes hAlike.right (Nat.lt_of_le_of_lt hAlike.reduces.length_le hn) hFirst'
          refine ⟨b :: others', last', ?_, .cons hab hOthers, hLast, Nat.le_trans hLastLess hLess.le⟩
          rw [commaList, hFirst']
          dsimp only
          rw [← hNext.kind_eq, if_pos hComma, ← hAfter.kind_eq, if_neg hClose, dif_pos hLess', hTail']
          rfl
  | case4 c a next hFirst hComma hClose hLess => exact absurd (hTakes hAlike.left hn hFirst) hLess
  | case5 c a next hFirst hComma =>
      cases hRun
      obtain ⟨b, next', hFirst', hab, hNext, hLess⟩ := hItem c d a _ hAlike hn hFirst
      refine ⟨[b], next', ?_, .cons hab .nil, hNext, hLess⟩
      rw [commaList, hFirst']
      dsimp only
      rw [← hNext.kind_eq, if_neg hComma]

theorem tracks_commaList? (close : TokenKind) (hReads : Reads n item fun _ w _ => Phrase w)
    (hItem : Tracks n Alike item item R Alike) :
    Tracks n Alike (commaList? close item) (commaList? close item) (List.Forall₂ R) Alike := by
  apply tracks_kind_bind
  intro found
  split
  · exact (tracks_pure .nil).from
  · exact (tracks_commaList close hReads hItem).from

theorem tracks_statement {Pre : Cursor → Cursor → Prop}
    (hItem : Tracks n Pre item item (fun _ _ => True) Alike) :
    Tracks n Pre (do let a ← item; statementEnd; return a) (do let a ← item; statementEnd; return a)
      (fun _ _ => True) AlikeAtStatement :=
  hItem.bind fun _ _ _ => tracks_statementEnd.bind fun _ _ _ => tracks_pure trivial

/-- A statement from the tokens that are missing leaves the others. -/
theorem statement_alike {Start : Cursor → Prop} (hReads : ReadsFrom n Start item fun _ w r => ItemWord w r)
    {c d next : Cursor} {a : α} (hAlike : c.AlikeAtStatement d) (hn : c.rest.length < n)
    (hs : Start c) (hMissing : ¬c.Alike d)
    (hRun : (do let a ← item; statementEnd; return a) c = .ok (a, next)) :
    next.AlikeAtStatement d := by
  obtain ⟨⟨word, rest, hSplit, hWord, hRest⟩, hc, hd⟩ := hAlike
  have hNe : word ≠ [] := by
    rintro rfl
    exact hMissing ⟨hSplit ▸ hRest, hc, hd⟩
  obtain ⟨first, later, rfl, -, -, hLater, hLeft, hStop, -⟩ :=
    statement_of_complete hReads hc hn hs hSplit hNe hWord hRun
  refine ⟨⟨later, rest, hLeft, hLater, hRest⟩, ⟨by rw [hStop]; exact hc.stop_kind, ?_⟩, hd⟩
  intro t ht
  rw [hLeft] at ht
  exact hc.rest_kind t (by rw [hSplit, List.append_assoc]; exact List.mem_append_right first ht)

/-- A statement takes a token at least. -/
theorem statement_length_lt {Start : Cursor → Prop}
    (hReads : ReadsFrom n Start item fun _ w r => ItemWord w r) {c next : Cursor} {a : α}
    (hc : c.IsProper) (hn : c.rest.length < n) (hs : Start c)
    (hRun : (do let a ← item; statementEnd; return a) c = .ok (a, next)) :
    next.rest.length < c.rest.length := by
  have hStatement : ReadsFrom n Start (do let a ← item; statementEnd; return a)
      fun _ w _ => w ≠ [] :=
    hReads.bind (V := fun _ _ _ _ => True) (fun _ => reads_statementEnd.bind_pure fun _ _ _ _ => trivial)
      fun _ _ _ v _ hu _ => List.append_ne_nil_of_left_ne_nil hu.ne_nil v
  exact length_lt_of_reads hStatement (fun _ _ _ h => h) hc hn hs hRun

/-- Before a token that no statement starts with nothing is missing. -/
theorem alike_of_not_goesOn {c d : Cursor} (h : c.AlikeAtStatement d)
    (hKind : (∃ b, c.kind = .closing b) ∨ c.kind = .endOfSource) : c.Alike d := by
  obtain ⟨hReduces, hc, hd⟩ := h
  refine ⟨?_, hc, hd⟩
  rcases hKind with ⟨b, hClosing⟩ | hEnd
  · exact hReduces.of_closing ((kind_eq hc).symm.trans hClosing)
  · obtain ⟨word, rest, hSplit, -, hRest⟩ := hReduces
    have hNil := rest_eq_nil hc hEnd
    rw [hSplit, List.append_eq_nil_iff] at hNil
    rw [hSplit, hNil.1]
    exact hRest

theorem tracks_statements {close : TokenKind}
    (hClose : (∃ b, close = .closing b) ∨ close = .endOfSource)
    (hReads : Reads n item fun _ w r => ItemWord w r) (hItem : Follows n item item) :
    Tracks n AlikeAtStatement (statements close item) (statements close item) (fun _ _ => True)
      Alike := by
  intro c d as c' hAlike hn hRun
  unfold statements at hRun ⊢
  fun_induction manyWhile (fun k => k ≠ close && k ≠ .endOfSource)
      (do let a ← item; statementEnd; return a) c generalizing d as c' with
  | case1 => cases hRun
  | case2 c hMore a next hFirst hLess ih =>
      cases hTail : manyWhile (fun k => k ≠ close && k ≠ .endOfSource)
        (do let a ← item; statementEnd; return a) next with
      | error e => rw [hTail] at hRun; cases hRun
      | ok result =>
          obtain ⟨others, last⟩ := result
          rw [hTail] at hRun
          cases hRun
          by_cases hSame : c.Alike d
          · obtain ⟨b, next', hFirst', -, hAfter, -⟩ :=
              tracks_statement hItem c d a next hSame hn hFirst
            obtain ⟨others', last', hTail', -, hLast, hLastLess⟩ :=
              ih next' others _ hAfter (Nat.lt_trans hLess hn) hTail
            have hLess' : next'.rest.length < d.rest.length :=
              statement_length_lt hReads hAlike.right (Nat.lt_of_le_of_lt hAlike.length_le hn)
                trivial hFirst'
            refine ⟨b :: others', last', ?_, trivial, hLast, Nat.le_trans hLastLess hLess.le⟩
            rw [manyWhile, ← hSame.kind_eq, if_pos hMore, hFirst']
            dsimp only
            rw [dif_pos hLess', hTail']
            rfl
          · have hAfter := statement_alike hReads hAlike hn trivial hSame hFirst
            obtain ⟨others', last', hTail', -, hLast, hLastLess⟩ :=
              ih d others _ hAfter (Nat.lt_trans hLess hn) hTail
            exact ⟨others', last', hTail', trivial, hLast, Nat.le_trans hLastLess hLess.le⟩
  | case3 c hMore a next hFirst hLess =>
      exact absurd (statement_length_lt hReads hAlike.left hn trivial hFirst) hLess
  | case4 c hMore =>
      cases hRun
      have hEnd : (∃ b, c.kind = .closing b) ∨ c.kind = .endOfSource := by
        by_cases hAtClose : c.kind = close
        · rw [hAtClose]
          exact hClose
        · exact .inr (by simpa [hAtClose] using hMore)
      have hSame := alike_of_not_goesOn hAlike hEnd
      refine ⟨[], d, ?_, trivial, hSame, Nat.le_refl _⟩
      rw [manyWhile, ← hSame.kind_eq, if_neg hMore]

/-! ## Brackets -/

/-- A bracket that holds no statement is not one behind which a statement is missing. -/
theorem tracks_closing {R' : β → γ → Prop} {Post : Cursor → Cursor → Prop} {b : Bracket}
    {p : Parser α} {F : α → Token → Parser β} {q : Parser γ}
    (hReads : Reads n p fun _ w _ => OptPhrase w)
    (h : Tracks n Alike (p >>= fun a => expect (.closing b) >>= F a) q R' Post) :
    Tracks n AlikeAtStatement (p >>= fun a => expect (.closing b) >>= F a) q R' Post := by
  rintro c d x c' ⟨hReduces, hc, hd⟩ hn hRun
  refine h c d x c' ⟨?_, hc, hd⟩ hn hRun
  obtain ⟨a, c₁, hFirst, hRest⟩ := bind_eq_ok.1 hRun
  obtain ⟨t, c₂, hExpect, -⟩ := bind_eq_ok.1 hRest
  obtain ⟨w, hTakes, hWord⟩ := hReads c a c₁ hc hn trivial hFirst
  have hClosing : nextKind c₁.rest = .closing b := by
    obtain ⟨v, hCloser, rfl, hKind⟩ := reads_expect (k := .closing b) (by rintro ⟨⟩) c₁ t c₂
      (hTakes.isProper hc) (Nat.lt_succ_self _) trivial hExpect
    rw [hCloser.rest_eq]
    exact hKind
  rcases hWord with rfl | hWord
  · exact hReduces.of_closing (by rw [hTakes.rest_eq]; exact hClosing)
  · exact hReduces.of_undivided hTakes.rest_eq hWord.balanced hWord.undivided hClosing

theorem follows_group (b : Bracket) : Follows n (group b) (group b) := by
  apply tracks_expect_statement.bind
  rintro opened opened' _ c d a c' ⟨⟨word, ts, hSplit, hWord, hReduces⟩, hc, hd⟩ _ hRun
  unfold groupEnd at hRun ⊢
  cases hClose : Brackets.close [⟨b, opened.span⟩] opened.span c.rest with
  | error e => rw [hClose] at hRun; cases hRun
  | ok closed =>
      obtain ⟨last, rest⟩ := closed
      rw [hClose] at hRun
      cases hRun
      obtain ⟨taken, hRest, -⟩ := Brackets.close_eq_ok hClose
      have hStack : [(⟨b, opened.span⟩ : Brackets.Opened)].map Brackets.Opened.bracket =
          [(⟨b, opened'.span⟩ : Brackets.Opened)].map Brackets.Opened.bracket := rfl
      obtain ⟨start, hSkip⟩ := close_append hWord.balanced ⟨b, opened.span⟩ [] opened.span ts
      rw [hSplit, hSkip] at hClose
      obtain ⟨last', rest', hClose', hLeft⟩ :=
        Brackets.close_reduces hReduces hStack hClose opened'.span
      obtain ⟨taken', hRest', -⟩ := Brackets.close_eq_ok hClose'
      refine ⟨(), ⟨last', rest', d.stop⟩, by rw [hClose'], trivial,
        ⟨hLeft, hc.after hRest, hd.after hRest'⟩, ?_⟩
      simp [hRest]

theorem follows_expression {stops : TokenKind → Bool}
    (hStops : stops .semicolon = true ∨ ∀ k, stops k = false) :
    Follows n (expression stops) (expression stops) := by
  rintro c d a c' ⟨hReduces, hc, hd⟩ _ hRun
  unfold expression at hRun ⊢
  cases hSplit : Brackets.splitExpression stops [] c.rest with
  | error e => rw [hSplit] at hRun; cases hRun
  | ok split =>
      obtain ⟨taken, rest⟩ := split
      obtain ⟨taken', rest', hSplit', hTaken, hLeft⟩ :=
        Brackets.splitExpression_reduces hStops hReduces hSplit
      have hRest := (Brackets.splitExpression_eq_ok hSplit).1
      have hRest' := (Brackets.splitExpression_eq_ok hSplit').1
      rw [hSplit] at hRun
      rw [hSplit']
      dsimp only at hRun ⊢
      cases hLast : taken.getLast? with
      | none => rw [hLast] at hRun; cases hRun
      | some last =>
          rw [hLast] at hRun
          cases hRun
          cases hLast' : taken'.getLast? with
          | none =>
              obtain rfl := hTaken (List.getLast?_eq_none_iff.1 hLast')
              cases hLast
          | some last' =>
              refine ⟨_, ⟨last'.span, rest', d.stop⟩, rfl, trivial,
                ⟨hLeft, hc.after hRest, hd.after hRest'⟩, ?_⟩
              simp [hRest]

end

end Parser

end GoTemplate
