import StatementLang.Proofs.Feed.Streams
import StatementLang.Proofs.Parser.Steps
/-!
# What a parse has read

A feed is read as the sequence `get f 0, get f 1, …`, and `Reads f n w` says that `w` stands in it
behind the first `n` tokens. A parse never skips or repeats a token: it has accepted the tokens
before its position, looks at the one there, and its feed stands right behind that (`On`).
-/
namespace StatementLang

/-! ## Positions in a feed -/

namespace TokenFeed

variable {σ : Type} [TokenFeed σ]

theorem advance_succ (f : σ) (n : Nat) : advance f (n + 1) = (pull (advance f n)).2 :=
  advance_add f n 1

/-- The tokens of `w` come after the first `n`. -/
def Reads (f : σ) (n : Nat) (w : List Token) : Prop := take (advance f n) w.length = w

theorem reads_nil (f : σ) (n : Nat) : Reads f n [] := rfl

theorem reads_cons {f : σ} {n : Nat} {t : Token} {w : List Token} :
    Reads f n (t :: w) ↔ get f n = t ∧ Reads f (n + 1) w := by
  rw [Reads, Reads, advance_succ, List.length_cons, take, List.cons.injEq]
  rfl

theorem get_of_reads {f : σ} {n : Nat} {w : List Token} (h : Reads f n w) {i : Nat}
    (hi : i < w.length) : get f (n + i) = w[i] := by
  induction w generalizing n i with
  | nil => cases hi
  | cons t w ih =>
    obtain ⟨ht, hw⟩ := reads_cons.1 h
    cases i with
    | zero => exact ht
    | succ i =>
      rw [List.getElem_cons_succ, ← ih hw (Nat.lt_of_succ_lt_succ hi), Nat.add_right_comm]
      rfl

/-- Where two feeds read the same they hand out the same. -/
theorem get_eq_of_reads {τ : Type} [TokenFeed τ] {f : σ} {g : τ} {w : List Token}
    (hf : Reads f 0 w) (hg : Reads g 0 w) {i : Nat} (hi : i < w.length) : get g i = get f i := by
  rw [← Nat.zero_add i, get_of_reads hf hi, get_of_reads hg hi]

theorem reads_append {f : σ} {n : Nat} {u w : List Token} :
    Reads f n (u ++ w) ↔ Reads f n u ∧ Reads f (n + u.length) w := by
  induction u generalizing n with
  | nil => simp [reads_nil]
  | cons t u ih =>
    have hn : n + 1 + u.length = n + (t :: u).length := by rw [List.length_cons]; omega
    rw [List.cons_append, reads_cons, reads_cons, ih, hn, and_assoc]

theorem eq_of_reads {f : σ} {n : Nat} {u w : List Token} (hu : Reads f n u) (hw : Reads f n w)
    (h : u.length = w.length) : u = w := by
  rw [← hu, ← hw, h]

/-- What a feed hands out first can be read in it. -/
theorem reads_of_handsOut {f : σ} {ts w : List Token} {last : Token} (h : HandsOut f ts last)
    (hw : w <+: ts) : Reads f 0 w := by
  obtain ⟨rest, rfl⟩ := hw
  show take f w.length = w
  rw [take_eq_map_get]
  refine List.ext_getElem (by simp) fun i _ hi => ?_
  rw [List.getElem_map, List.getElem_range, h i, List.getD_eq_getElem?_getD,
    List.getElem?_append_left hi, List.getElem?_eq_getElem hi, Option.getD_some]

/-- What can be read in a feed without its end of file is among its tokens. -/
theorem prefix_of_handsOut {f : σ} {ts w : List Token} {last : Token} (h : HandsOut f ts last)
    (hlast : last.kind = .eof) (hr : Reads f 0 w) (hw : ∀ t ∈ w, t.kind ≠ .eof) : w <+: ts := by
  have hget : ∀ i (hi : i < w.length), w[i] = ts.getD i last := by
    intro i hi
    rw [← get_of_reads hr hi, Nat.zero_add, h i]
  have hle : w.length ≤ ts.length := by
    apply Nat.le_of_not_lt
    intro hlt
    refine hw _ (List.getElem_mem hlt) ?_
    rw [hget _ hlt, List.getD_eq_getElem?_getD, List.getElem?_eq_none (Nat.le_refl _)]
    exact hlast
  refine List.prefix_iff_eq_take.2 (List.ext_getElem ?_ fun i hi _ => ?_)
  · rw [List.length_take, Nat.min_eq_left hle]
  · have hits : i < ts.length := Nat.lt_of_lt_of_le hi hle
    rw [hget i hi, List.getElem_take, List.getD_eq_getElem?_getD, List.getElem?_eq_getElem hits,
      Option.getD_some]

end TokenFeed

/-! ## Positions in a queue -/

namespace TokenQueue

open TokenFeed

theorem reads_of_prefix {q : TokenQueue} {w : List Token} (h : w <+: q.tokens) : Reads q 0 w :=
  reads_of_handsOut (handsOut q.tokens q.line) h

theorem reads_ofList {ts w : List Token} (h : w <+: ts) : Reads (ofList ts) 0 w :=
  reads_of_prefix h

/-- Past its tokens a queue has ends of file only. -/
theorem prefix_of_reads {q : TokenQueue} {w : List Token} (h : Reads q 0 w)
    (hw : ∀ t ∈ w, t.kind ≠ .eof) : w <+: q.tokens :=
  prefix_of_handsOut (handsOut q.tokens q.line) rfl h hw

end TokenQueue

/-! ## The position of a parse -/

namespace Parser

open TokenFeed

variable {σ : Type}

/-- The tokens that have been accepted, in order. -/
def State.accepted (s : State σ) : List Token := Event.terminals s.events

/-- The number of tokens before the lookahead. -/
def State.pos (s : State σ) : Nat := s.accepted.length

/-- An event that is no terminal moves nothing. -/
theorem accepted_cons {t : Token} {feed : σ} {fs fs' : List Frame} {e : Event} {past : List Event}
    (h : Event.terminals [e] = []) :
    State.accepted ⟨t, feed, fs, e :: past⟩ = State.accepted ⟨t, feed, fs', past⟩ := by
  simp [State.accepted, State.events, h]

variable [TokenFeed σ]

/-- `s` is a state of a parse that reads `f` from its first token on. -/
structure State.On (f : σ) (s : State σ) : Prop where
  accepted : Reads f 0 s.accepted
  lookahead : s.lookahead = get f s.pos
  feed : s.feed = advance f (s.pos + 1)

variable {limit : Option Nat} {f : σ}

theorem on_opened (f : σ) : (opened f).On f := ⟨rfl, rfl, rfl⟩

theorem on_of_accepted_eq {s s' : State σ} (hs : s.On f) (ha : s'.accepted = s.accepted)
    (hl : s'.lookahead = s.lookahead) (hf : s'.feed = s.feed) : s'.On f := by
  obtain ⟨h1, h2, h3⟩ := hs
  refine ⟨ha ▸ h1, ?_, ?_⟩
  · rw [hl, h2, State.pos, State.pos, ha]
  · rw [hf, h3, State.pos, State.pos, ha]

theorem on_of_move (s s' : State σ) (hs : s.On f) (h : Move limit s s') : s'.On f := by
  cases h with
  | finish => exact on_of_accepted_eq hs (accepted_cons rfl) rfl rfl
  | call => exact on_of_accepted_eq hs (accepted_cons rfl) rfl rfl
  | choose => exact on_of_accepted_eq hs rfl rfl rfl
  | @take t feed r ts is outer past =>
    obtain ⟨h1, h2, h3⟩ := hs
    have h2 : t = get f _ := h2
    have h3 : feed = advance f _ := h3
    have ha : State.accepted ⟨(pull feed).1, (pull feed).2, ⟨r, is⟩ :: outer, .terminal t :: past⟩ =
        State.accepted ⟨t, feed, ⟨r, .take ts :: is⟩ :: outer, past⟩ ++ [t] := by
      simp [State.accepted, State.events, Event.terminals]
    refine ⟨?_, ?_, ?_⟩
    · rw [ha, reads_append, Nat.zero_add]
      exact ⟨h1, reads_cons.2 ⟨h2.symm, reads_nil f _⟩⟩
    · rw [State.pos, ha, List.length_append, h3]
      rfl
    · rw [State.pos, ha, List.length_append, h3]
      exact (advance_succ f _).symm

theorem on_of_steps {s s' : State σ} (h : Steps limit s s') (hs : s.On f) : s'.On f :=
  of_steps on_of_move h hs

/-- A move tells at most one event, and takes none back. -/
theorem events_of_move {s s' : State σ} (h : Move limit s s') :
    s'.events = s.events ∨ ∃ e, s'.events = s.events ++ [e] := by
  cases h with
  | choose => exact .inl rfl
  | _ => exact .inr ⟨_, List.reverse_cons⟩

theorem events_prefix_of_move {s s' : State σ} (h : Move limit s s') : s.events <+: s'.events := by
  rcases events_of_move h with he | ⟨e, he⟩
  · exact he ▸ List.prefix_rfl
  · exact he ▸ List.prefix_append _ _

theorem events_prefix_of_steps {s s' : State σ} (h : Steps limit s s') : s.events <+: s'.events :=
  of_steps (P := fun a => s.events <+: a.events)
    (fun _ _ ha hm => ha.trans (events_prefix_of_move hm)) h List.prefix_rfl

theorem pos_le_of_move {s s' : State σ} (h : Move limit s s') : s.pos ≤ s'.pos :=
  ((events_prefix_of_move h).filterMap _).length_le

theorem pos_le_succ_of_move {s s' : State σ} (h : Move limit s s') : s'.pos ≤ s.pos + 1 := by
  rcases events_of_move h with he | ⟨e, he⟩
  · rw [State.pos, State.pos, State.accepted, State.accepted, he]
    exact Nat.le_succ _
  · have hone : (Event.terminals [e]).length ≤ 1 := List.length_filterMap_le _ _
    rw [State.pos, State.pos, State.accepted, State.accepted, he, Event.terminals_append,
      List.length_append]
    exact Nat.add_le_add_left hone _

/-- A terminal is told when it is taken, by the frame on top, behind the events before it. -/
theorem exists_take_of_terminal {s : State σ} {es : List Event} {t : Token}
    (h : Steps limit (opened f) s) (he : es ++ [.terminal t] <+: s.events) :
    ∃ a r ts is outer, Steps limit (opened f) a ∧ a.events = es ∧ a.lookahead = t ∧
      a.frames = ⟨r, .take ts :: is⟩ :: outer ∧ t.kind ∈ ts.kinds := by
  induction h with
  | refl =>
    have hstart : (opened f).events = [] ++ [.commence .statementPart] := rfl
    rw [hstart, List.prefix_concat_iff] at he
    rcases he with he | he
    · cases es <;> simp at he
    · simp at he
  | @tail a b ha hm ih =>
    rcases events_of_move hm with hsame | ⟨e, hmore⟩
    · exact ih (hsame ▸ he)
    · rw [hmore, List.prefix_concat_iff] at he
      rcases he with he | he
      · obtain ⟨rfl, rfl⟩ : es = a.events ∧ .terminal t = e := by simpa using he
        cases hm with
        | take fit =>
          obtain rfl : _ = t := by simpa [State.events] using hmore
          exact ⟨_, _, _, _, _, ha, rfl, rfl, rfl, fit⟩
        | _ => simp [State.events] at hmore
      · exact ih he

end Parser
end StatementLang
