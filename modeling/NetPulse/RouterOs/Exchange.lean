import NetPulse.Lib.Dict
import NetPulse.RouterOs.Words

/-
# NetPulse.RouterOs.Exchange — one request and its reply (`routeros.py`)

`_exchange` reads word after word until a `!done` sentence is complete. It counts words and bytes
before it reads a word, and rows when it has one; a `!trap` is remembered until `!done`, a `!fatal`
ends it at once.

What it answers is said twice. `Absorbs` takes a list of words and does what the loop does;
`Answered` knows no loop: it has sentences, and says which ones stand before the first `!done`.
`replyLoop_ok_iff` leads from the reply to a list of words, whatever the lengths look like, and
`absorbs_iff` from there to the sentences. Both inductions carry the sentence that has begun.
-/

namespace NetPulse.RouterOs

open NetPulse.Lib (Bytes Dict)

/-! ## §1 The loop -/

def MAX_ROWS : Nat := 256

def MAX_WORDS : Nat := 16384

abbrev Attrs := Dict String String

/-- `word[1:].split('=', 1)`, where `word.startswith('=') and '=' in word[1:]`. -/
def wordAttr (word : String) : Option (String × String) :=
  match word.toList with
  | '=' :: rest =>
      if '=' ∈ rest then
        some (String.ofList (rest.takeWhile (· ≠ '=')),
          String.ofList (rest.dropWhile (· ≠ '=')).tail)
      else none
  | _ => none

/-- The attributes in the words behind the first one. -/
def attrsOf (words : List String) : Attrs :=
  (words.filterMap wordAttr).foldl (fun d e => d.set e.1 e.2) Dict.empty

structure State where
  rows : List Attrs
  sentence : List String
  total : Nat
  word_count : Nat
  denied : Bool

def State.start : State := ⟨[], [], 0, 0, false⟩

/-- What the loop does behind a word: it goes on, or it returns. -/
inductive Outcome where
  | more (st : State)
  | answer (rows : List Attrs) (attrs : Attrs)

/-- The counters, before the word is read. -/
def State.count (st : State) (size : Nat) : Except Exn State :=
  let st := { st with total := st.total + size, word_count := st.word_count + 1 }
  if size > MAX_BYTES ∨ st.total > MAX_BYTES ∨ st.word_count > MAX_WORDS then
    .error (.routerError "API response limit exceeded")
  else .ok st

/-- The next word of the sentence. -/
def State.word (st : State) (raw : Bytes) : Except Exn Outcome :=
  match decode raw with
  | none => .error .unicodeError
  | some word => .ok (.more { st with sentence := st.sentence ++ [word] })

/-- The end of the sentence. -/
def State.terminator (st : State) : Except Exn Outcome :=
  match st.sentence with
  | [] => .ok (.more st)
  | kind :: rest =>
      let attrs := attrsOf rest
      if kind = "!fatal" then .error (.routerError "API connection rejected")
      else
        let denied := st.denied || kind = "!trap"
        if kind = "!done" then
          if denied then
            .error (.routerError "API request denied; check permissions and RouterOS support")
          else .ok (.answer st.rows attrs)
        else if kind = "!re" then
          let rows := st.rows ++ [attrs]
          if rows.length > MAX_ROWS then .error (.routerError "Too many router interfaces")
          else .ok (.more { st with rows := rows, denied := denied, sentence := [] })
        else .ok (.more { st with denied := denied, sentence := [] })

/-- A length, and the word behind it if the limits allow it. -/
def Sock.fetch (s : Sock) (st : State) (pos : Nat) : Except Exn (State × Bytes × Nat) := do
  let (size, pos) ← s.length pos
  let st ← st.count size
  if size ≠ 0 then
    let (raw, pos) ← s.recv size pos
    return (st, raw, pos)
  else return (st, [], pos)

def State.handle (st : State) (raw : Bytes) : Except Exn Outcome :=
  if raw ≠ [] then st.word raw else st.terminator

/-- One round of the loop. -/
def Sock.round (s : Sock) (st : State) (pos : Nat) : Except Exn (Outcome × Nat) := do
  let (st, raw, pos) ← s.fetch st pos
  return (← st.handle raw, pos)

theorem count_ok {st st' : State} {size : Nat} (h : st.count size = .ok st') :
    st' = { st with total := st.total + size, word_count := st.word_count + 1 } ∧
      st.total + size ≤ MAX_BYTES ∧ st.word_count + 1 ≤ MAX_WORDS := by
  unfold State.count at h
  dsimp only at h
  split at h
  · cases h
  · rename_i hlimits
    rw [not_or, not_or] at hlimits
    cases h
    exact ⟨rfl, Nat.not_lt.mp hlimits.2.1, Nat.not_lt.mp hlimits.2.2⟩

theorem handle_more {st st' : State} {raw : Bytes} (h : st.handle raw = .ok (.more st')) :
    st'.total = st.total ∧ st'.word_count = st.word_count := by
  unfold State.handle at h
  split at h
  · unfold State.word at h
    split at h
    · cases h
    · cases h
      exact ⟨rfl, rfl⟩
  · unfold State.terminator at h
    split at h
    · cases h
      exact ⟨rfl, rfl⟩
    · dsimp only at h
      split_ifs at h
      all_goals cases h
      all_goals exact ⟨rfl, rfl⟩

theorem fetch_ok {s : Sock} {st st' : State} {pos pos' : Nat} {raw : Bytes}
    (h : s.fetch st pos = .ok (st', raw, pos')) :
    st' = { st with total := st.total + raw.length, word_count := st.word_count + 1 } ∧
      st.total + raw.length ≤ MAX_BYTES ∧ st.word_count + 1 ≤ MAX_WORDS ∧
      ∃ ls, LengthForm ls raw.length ∧ Arrives s.reply pos (ls ++ raw) ∧
        pos' = pos + (ls ++ raw).length := by
  obtain ⟨⟨size, p⟩, hlength, h⟩ := NetPulse.Lib.bind_eq_ok.mp h
  obtain ⟨st₁, hcount, h⟩ := NetPulse.Lib.bind_eq_ok.mp h
  obtain ⟨ls, hform, hls, hp⟩ := length_ok_iff.mp hlength
  dsimp only at h hcount hp
  split at h
  · obtain ⟨⟨raw', p'⟩, hrecv, h⟩ := NetPulse.Lib.bind_eq_ok.mp h
    obtain ⟨hlen, harr, hp'⟩ := recv_ok_iff.mp hrecv
    dsimp only at hlen harr hp'
    cases h
    subst hlen hp
    obtain ⟨hst, hbytes, hwords⟩ := count_ok hcount
    refine ⟨hst, hbytes, hwords, ls, hform, arrives_append.mpr ⟨hls, harr⟩, ?_⟩
    rw [hp', List.length_append, Nat.add_assoc]
  · rename_i hzero
    have hsize : size = 0 := not_not.mp hzero
    cases h
    subst hsize
    obtain ⟨hst, hbytes, hwords⟩ := count_ok hcount
    exact ⟨hst, hbytes, hwords, ls, hform, by rwa [List.append_nil], by rw [hp, List.append_nil]⟩

theorem round_more {s : Sock} {st st' : State} {pos pos' : Nat}
    (h : s.round st pos = .ok (.more st', pos')) :
    st'.word_count = st.word_count + 1 ∧ st.word_count + 1 ≤ MAX_WORDS := by
  obtain ⟨⟨st₁, raw, p⟩, hfetch, h⟩ := NetPulse.Lib.bind_eq_ok.mp h
  obtain ⟨o, hhandle, h⟩ := NetPulse.Lib.bind_eq_ok.mp h
  cases h
  obtain ⟨rfl, -, hwords, -⟩ := fetch_ok hfetch
  exact ⟨(handle_more hhandle).2, hwords⟩

/-- The loop of `_exchange`. It ends, since the words are counted. -/
def Sock.replyLoop (s : Sock) (st : State) (pos : Nat) : Except Exn (List Attrs × Attrs) :=
  match _h : s.round st pos with
  | .error e => .error e
  | .ok (.answer rows attrs, _) => .ok (rows, attrs)
  | .ok (.more st', pos') => s.replyLoop st' pos'
termination_by MAX_WORDS - st.word_count
decreasing_by
  obtain ⟨hcount, hle⟩ := round_more _h
  omega

/-- `_exchange`, when the request has been sent. -/
def Sock.exchange (s : Sock) (words : List String) : Except Exn (List Attrs × Attrs) := do
  let _ ← encodeSentence words
  s.replyLoop State.start 0

/-- What `read` makes of an exchange. -/
def readRows (x : Except Exn (List Attrs × Attrs)) : Except Exn (List Attrs) :=
  match x with
  | .ok (rows, _) => .ok rows
  | .error (.routerError text) => .error (.routerError text)
  | .error (.osError _) => .error (.routerError "API-SSL transport failed")
  | .error .unicodeError => .error (.routerError "API-SSL transport failed")

/-! ## §2 What a reply says -/

/-- From one place to another stand these words, each behind some form of its length. -/
inductive WordsAt (reply : Nat → Place) : Nat → List Bytes → Nat → Prop
  | nil (pos : Nat) : WordsAt reply pos [] pos
  | cons {pos fin : Nat} {ls raw : Bytes} {ws : List Bytes} : LengthForm ls raw.length →
      Arrives reply pos (ls ++ raw) → WordsAt reply (pos + (ls ++ raw).length) ws fin →
      WordsAt reply pos (raw :: ws) fin

/-- The words are these sentences, each with an empty word behind it, and empty words between. -/
inductive Sentences : List String → List (List String) → Prop
  | nil : Sentences [] []
  | blank {ws : List String} {ss : List (List String)} : Sentences ws ss → Sentences ("" :: ws) ss
  | sentence {x ws : List String} {ss : List (List String)} : x ≠ [] → "" ∉ x → Sentences ws ss →
      Sentences (x ++ "" :: ws) (x :: ss)

/-- The first word of a sentence. -/
def kindOf (sentence : List String) : Option String := sentence.head?

/-- The words end with the first `!done` sentence, and `ss` are the sentences before it. -/
structure Complete (texts : List String) (ss : List (List String)) (last : List String) : Prop where
  words : ∃ before, texts = before ++ (last ++ [""]) ∧ Sentences before ss
  whole : "" ∉ last
  done : kindOf last = some "!done"
  first : ∀ x ∈ ss, kindOf x ≠ some "!done"

/-- The attributes of the `!re` sentences. -/
def rowsOf (ss : List (List String)) : List Attrs :=
  (ss.filter fun x => kindOf x = some "!re").map fun x => attrsOf x.tail

def Refused (x : List String) : Prop := kindOf x = some "!trap" ∨ kindOf x = some "!fatal"

/-- The reply comes to a first `!done`, no sentence before it refuses the request, the limits hold,
and the answer is what the sentences say. -/
def Answered (reply : Nat → Place) (r : List Attrs × Attrs) : Prop :=
  ∃ ws fin texts ss last, WordsAt reply 0 ws fin ∧ ws.mapM decode = some texts ∧
    Complete texts ss last ∧ (∀ x ∈ ss, ¬ Refused x) ∧ ws.length ≤ MAX_WORDS ∧
    (ws.map List.length).sum ≤ MAX_BYTES ∧ (rowsOf ss).length ≤ MAX_ROWS ∧
    r = (rowsOf ss, attrsOf last.tail)

/-! ## §3 From the reply to its words -/

/-- What the loop does with one word. -/
def State.absorb (st : State) (raw : Bytes) : Except Exn Outcome := do
  let st ← st.count raw.length
  st.handle raw

/-- The loop returns `r` at the last of these words. -/
def Absorbs : State → List Bytes → List Attrs × Attrs → Prop
  | _, [], _ => False
  | st, raw :: ws, r =>
      match st.absorb raw with
      | .ok (.more st') => Absorbs st' ws r
      | .ok (.answer rows attrs) => ws = [] ∧ r = (rows, attrs)
      | .error _ => False

variable {s : Sock} {st : State} {pos pos' : Nat}

/-- **One round** reads one word. -/
theorem round_ok_iff {o : Outcome} :
    s.round st pos = .ok (o, pos') ↔ ∃ ls raw, LengthForm ls raw.length ∧
      Arrives s.reply pos (ls ++ raw) ∧ pos' = pos + (ls ++ raw).length ∧ st.absorb raw = .ok o := by
  constructor
  · intro h
    obtain ⟨⟨st₁, raw, p⟩, hfetch, h⟩ := NetPulse.Lib.bind_eq_ok.mp h
    obtain ⟨o', hhandle, h⟩ := NetPulse.Lib.bind_eq_ok.mp h
    cases h
    obtain ⟨rfl, hbytes, hwords, ls, hform, harr, hpos⟩ := fetch_ok hfetch
    refine ⟨ls, raw, hform, harr, hpos, NetPulse.Lib.bind_eq_ok.mpr ⟨_, ?_, hhandle⟩⟩
    unfold State.count
    dsimp only
    exact if_neg (by omega)
  · rintro ⟨ls, raw, hform, harr, rfl, habsorb⟩
    obtain ⟨st₁, hcount, hhandle⟩ := NetPulse.Lib.bind_eq_ok.mp habsorb
    obtain ⟨hls, hraw⟩ := arrives_append.mp harr
    have hlength := length_ok_iff.mpr ⟨ls, hform, hls, rfl⟩
    have hfetch : s.fetch st pos = .ok (st₁, raw, pos + (ls ++ raw).length) := by
      unfold Sock.fetch
      rw [hlength, NetPulse.Lib.ok_bind]
      dsimp only
      rw [hcount, NetPulse.Lib.ok_bind]
      cases raw with
      | nil => rw [List.append_nil]; rfl
      | cons b bs =>
          have hrecv : s.recv (b :: bs).length (pos + ls.length) =
              .ok (b :: bs, pos + ls.length + (b :: bs).length) :=
            recv_ok_iff.mpr ⟨rfl, hraw, rfl⟩
          have hne : (b :: bs).length ≠ 0 := Nat.succ_ne_zero _
          rw [if_pos hne, hrecv, List.length_append, ← Nat.add_assoc]
          rfl
    unfold Sock.round
    rw [hfetch, NetPulse.Lib.ok_bind]
    dsimp only
    rw [hhandle]
    rfl

/-- **The loop** returns what its words lead to. -/
theorem replyLoop_ok_iff {r : List Attrs × Attrs} :
    s.replyLoop st pos = .ok r ↔ ∃ ws fin, WordsAt s.reply pos ws fin ∧ Absorbs st ws r := by
  constructor
  · intro h
    fun_induction Sock.replyLoop s st pos with
    | case1 => cases h
    | case2 st pos rows attrs pos' hround =>
        cases h
        obtain ⟨ls, raw, hform, harr, rfl, habsorb⟩ := round_ok_iff.mp hround
        refine ⟨[raw], _, .cons hform harr (.nil _), ?_⟩
        rw [Absorbs, habsorb]
        exact ⟨rfl, rfl⟩
    | case3 st pos st' pos' hround ih =>
        obtain ⟨ls, raw, hform, harr, rfl, habsorb⟩ := round_ok_iff.mp hround
        obtain ⟨ws, fin, hws, hrest⟩ := ih h
        refine ⟨raw :: ws, fin, .cons hform harr hws, ?_⟩
        rw [Absorbs, habsorb]
        exact hrest
  · rintro ⟨ws, fin, hws, habs⟩
    induction hws generalizing st with
    | nil => exact habs.elim
    | cons hform harr hrest ih =>
        rename_i raw ws
        rw [Absorbs] at habs
        cases habsorb : st.absorb raw with
        | error e => rw [habsorb] at habs; exact habs.elim
        | ok o =>
            have hround := round_ok_iff.mpr ⟨_, raw, hform, harr, rfl, habsorb⟩
            rw [habsorb] at habs
            rw [Sock.replyLoop]
            cases o with
            | more st' =>
                split
                · rename_i e he
                  rw [hround] at he
                  cases he
                · rename_i he
                  rw [hround] at he
                  cases he
                · rename_i he
                  rw [hround] at he
                  cases he
                  exact ih habs
            | answer rows attrs =>
                split
                · rename_i e he
                  rw [hround] at he
                  cases he
                · rename_i he
                  rw [hround] at he
                  cases he
                  exact congrArg _ habs.2.symm
                · rename_i he
                  rw [hround] at he
                  cases he

/-! ## §4 From the words to the sentences -/

theorem encode_of_decode {raw : Bytes} {word : String} (h : decode raw = some word) :
    encode word = raw := by
  unfold decode String.fromUTF8? at h
  split at h
  · cases h
    rfl
  · cases h

theorem ne_blank_of_decode {raw : Bytes} {word : String} (h : decode raw = some word)
    (hraw : raw ≠ []) : word ≠ "" := by
  rintro rfl
  exact hraw (encode_of_decode h).symm

theorem mapM_decode_cons {raw : Bytes} {ws : List Bytes} {texts : List String} :
    (raw :: ws).mapM decode = some texts ↔
      ∃ word rest, decode raw = some word ∧ ws.mapM decode = some rest ∧ texts = word :: rest := by
  rw [List.mapM_cons]
  constructor
  · intro h
    obtain ⟨word, hword, h⟩ := Option.bind_eq_some_iff.mp h
    obtain ⟨rest, hrest, h⟩ := Option.bind_eq_some_iff.mp h
    cases h
    exact ⟨word, rest, hword, hrest, rfl⟩
  · rintro ⟨word, rest, hword, hrest, rfl⟩
    rw [hword, hrest]
    rfl

theorem append_blank_inj {x y ws vs : List String} (hx : "" ∉ x) (hy : "" ∉ y)
    (h : x ++ "" :: ws = y ++ "" :: vs) : x = y ∧ ws = vs := by
  induction x generalizing y with
  | nil =>
      cases y with
      | nil => exact ⟨rfl, (List.cons.inj h).2⟩
      | cons b y => exact absurd ((List.cons.inj h).1 ▸ List.mem_cons_self) hy
  | cons a x ih =>
      cases y with
      | nil => exact absurd ((List.cons.inj h).1 ▸ List.mem_cons_self) hx
      | cons b y =>
          obtain ⟨rfl, hrest⟩ := List.cons.inj h
          obtain ⟨rfl, rfl⟩ := ih (fun hmem => hx (List.mem_cons_of_mem _ hmem))
            (fun hmem => hy (List.mem_cons_of_mem _ hmem)) hrest
          exact ⟨rfl, rfl⟩

theorem Sentences.cases {texts : List String} {ss : List (List String)} (h : Sentences texts ss) :
    (texts = [] ∧ ss = []) ∨ (∃ ws, texts = "" :: ws ∧ Sentences ws ss) ∨
      ∃ x ws ss', x ≠ [] ∧ "" ∉ x ∧ texts = x ++ "" :: ws ∧ ss = x :: ss' ∧ Sentences ws ss' := by
  cases h with
  | nil => exact .inl ⟨rfl, rfl⟩
  | blank h => exact .inr (.inl ⟨_, rfl, h⟩)
  | sentence hx hblank h => exact .inr (.inr ⟨_, _, _, hx, hblank, rfl, rfl, h⟩)

/-- No sentence begins with an empty word. -/
theorem ne_blank_cons {x ws vs : List String} (hx : x ≠ []) (hblank : "" ∉ x) :
    x ++ ws ≠ "" :: vs := by
  intro h
  cases x with
  | nil => exact hx rfl
  | cons a x => exact hblank ((List.cons.inj h).1 ▸ List.mem_cons_self)

theorem ne_nil_of_kindOf {x : List String} {kind : String} (h : kindOf x = some kind) : x ≠ [] := by
  rintro rfl
  cases h

theorem complete_blank {texts last : List String} {ss : List (List String)} :
    Complete ("" :: texts) ss last ↔ Complete texts ss last := by
  constructor
  · rintro ⟨⟨before, htexts, hss⟩, hwhole, hdone, hfirst⟩
    rcases hss.cases with ⟨rfl, rfl⟩ | ⟨ws, rfl, hws⟩ | ⟨x, ws, ss', hx, hblank, rfl, rfl, hws⟩
    · have hlast : last ++ [""] = "" :: texts := htexts.symm
      exact absurd hlast (ne_blank_cons (ne_nil_of_kindOf hdone) hwhole)
    · exact ⟨⟨ws, (List.cons.inj htexts).2, hws⟩, hwhole, hdone, hfirst⟩
    · rw [List.append_assoc] at htexts
      exact absurd htexts.symm (ne_blank_cons hx hblank)
  · rintro ⟨⟨before, rfl, hss⟩, hwhole, hdone, hfirst⟩
    exact ⟨⟨"" :: before, rfl, .blank hss⟩, hwhole, hdone, hfirst⟩

/-- Behind a sentence there is nothing if it is the first `!done`, and else what is complete. -/
theorem complete_sentence {x texts last : List String} {ss : List (List String)} (hx : x ≠ [])
    (hblank : "" ∉ x) : Complete (x ++ "" :: texts) ss last ↔
      (kindOf x = some "!done" ∧ texts = [] ∧ ss = [] ∧ last = x) ∨
        (kindOf x ≠ some "!done" ∧ ∃ ss', ss = x :: ss' ∧ Complete texts ss' last) := by
  constructor
  · rintro ⟨⟨before, htexts, hss⟩, hwhole, hdone, hfirst⟩
    rcases hss.cases with ⟨rfl, rfl⟩ | ⟨ws, rfl, hws⟩ | ⟨y, ws, ss', hy, hyblank, rfl, rfl, hws⟩
    · obtain ⟨rfl, rfl⟩ := append_blank_inj hblank hwhole htexts
      exact .inl ⟨hdone, rfl, rfl, rfl⟩
    · exact absurd htexts (ne_blank_cons hx hblank)
    · rw [List.append_assoc, List.cons_append] at htexts
      obtain ⟨rfl, rfl⟩ := append_blank_inj hblank hyblank htexts
      refine .inr ⟨hfirst _ List.mem_cons_self, ss', rfl, ⟨ws, rfl, hws⟩, hwhole, hdone, ?_⟩
      exact fun z hz => hfirst z (List.mem_cons_of_mem _ hz)
  · rintro (⟨hdone, rfl, rfl, rfl⟩ | ⟨hkind, ss', rfl, ⟨before, rfl, hss⟩, hwhole, hdone, hfirst⟩)
    · exact ⟨⟨[], rfl, .nil⟩, hblank, hdone, fun z hz => absurd hz List.not_mem_nil⟩
    · refine ⟨⟨x ++ "" :: before, ?_, .sentence hx hblank hss⟩, hwhole, hdone, ?_⟩
      · rw [List.append_assoc, List.cons_append]
      · exact List.forall_mem_cons.mpr ⟨hkind, hfirst⟩

/-- What `Answered` asks for, when the loop has come to a state. -/
def Owed (st : State) (ws : List Bytes) (r : List Attrs × Attrs) : Prop :=
  ∃ texts ss last, ws.mapM decode = some texts ∧ Complete (st.sentence ++ texts) ss last ∧
    (∀ x ∈ ss, ¬ Refused x) ∧ st.denied = false ∧ st.word_count + ws.length ≤ MAX_WORDS ∧
    st.total + (ws.map List.length).sum ≤ MAX_BYTES ∧
    (st.rows ++ rowsOf ss).length ≤ MAX_ROWS ∧ r = (st.rows ++ rowsOf ss, attrsOf last.tail)

theorem not_owed_nil {r : List Attrs × Attrs} (h : "" ∉ st.sentence) : ¬ Owed st [] r := by
  rintro ⟨texts, ss, last, htexts, ⟨⟨before, hwords, -⟩, -, -, -⟩, -⟩
  obtain rfl : texts = [] := (Option.some.inj htexts).symm
  refine h ?_
  rw [List.append_nil] at hwords
  rw [hwords]
  exact List.mem_append_right _ (List.mem_append_right _ List.mem_cons_self)

theorem not_owed_of_limits {raw : Bytes} {ws : List Bytes} {r : List Attrs × Attrs}
    (h : raw.length > MAX_BYTES ∨ st.total + raw.length > MAX_BYTES ∨
      st.word_count + 1 > MAX_WORDS) : ¬ Owed st (raw :: ws) r := by
  rintro ⟨-, -, -, -, -, -, -, hwords, hbytes, -⟩
  rw [List.length_cons] at hwords
  rw [List.map_cons, List.sum_cons] at hbytes
  omega

/-- The counters of a state, behind a word of this length. -/
def State.counted (st : State) (size : Nat) : State :=
  { st with total := st.total + size, word_count := st.word_count + 1 }

theorem owed_word {raw : Bytes} {ws : List Bytes} {r : List Attrs × Attrs} {word : String}
    (hword : decode raw = some word) :
    Owed st (raw :: ws) r ↔
      Owed { st.counted raw.length with sentence := st.sentence ++ [word] } ws r := by
  unfold Owed State.counted
  simp only [mapM_decode_cons, hword, Option.some.injEq, List.length_cons, List.map_cons,
    List.sum_cons, List.append_assoc, List.singleton_append]
  constructor
  · rintro ⟨texts, ss, last, ⟨word', rest, rfl, hrest, rfl⟩, hcomplete, href, hden, hwords, hbytes, h⟩
    exact ⟨rest, ss, last, hrest, hcomplete, href, hden, by omega, by omega, h⟩
  · rintro ⟨rest, ss, last, hrest, hcomplete, href, hden, hwords, hbytes, h⟩
    exact ⟨word :: rest, ss, last, ⟨word, rest, rfl, hrest, rfl⟩, hcomplete, href, hden, by omega,
      by omega, h⟩

theorem decode_nil : decode [] = some "" := decode_encode ""

theorem owed_blank {ws : List Bytes} {r : List Attrs × Attrs} (h : st.sentence = []) :
    Owed st ([] :: ws) r ↔ Owed (st.counted 0) ws r := by
  rw [owed_word decode_nil]
  unfold Owed State.counted
  simp only [h, List.nil_append, List.singleton_append, complete_blank, List.length_nil]

theorem rowsOf_cons (x : List String) (ss : List (List String)) :
    rowsOf (x :: ss) = (if kindOf x = some "!re" then [attrsOf x.tail] else []) ++ rowsOf ss := by
  by_cases h : kindOf x = some "!re"
  · simp [rowsOf, h]
  · simp [rowsOf, h]

/-- The state behind a sentence that is not the last one. -/
def State.behind (st : State) (x : List String) : State :=
  { st.counted 0 with
    rows := st.rows ++ (if kindOf x = some "!re" then [attrsOf x.tail] else []), sentence := [] }

theorem owed_sentence (ws : List Bytes) (r : List Attrs × Attrs) (hx : st.sentence ≠ [])
    (hblank : "" ∉ st.sentence) (hdone : kindOf st.sentence ≠ some "!done") :
    Owed st ([] :: ws) r ↔ ¬ Refused st.sentence ∧ Owed (st.behind st.sentence) ws r := by
  rw [owed_word decode_nil]
  unfold Owed State.behind State.counted
  dsimp only
  constructor
  · rintro ⟨rest, ss, last, hrest, hcomplete, href, hden, hwords, hbytes, hrows, rfl⟩
    rw [List.append_assoc, List.singleton_append, complete_sentence hx hblank] at hcomplete
    obtain ⟨h, -⟩ | ⟨-, ss', rfl, hcomplete⟩ := hcomplete
    · exact absurd h hdone
    · obtain ⟨hhere, href⟩ := List.forall_mem_cons.mp href
      rw [rowsOf_cons, ← List.append_assoc] at hrows ⊢
      exact ⟨hhere, rest, ss', last, hrest, hcomplete, href, hden, hwords, hbytes, hrows, rfl⟩
  · rintro ⟨hhere, rest, ss', last, hrest, hcomplete, href, hden, hwords, hbytes, hrows, rfl⟩
    refine ⟨rest, st.sentence :: ss', last, hrest, ?_, List.forall_mem_cons.mpr ⟨hhere, href⟩, hden,
      hwords, hbytes, ?_, ?_⟩
    · rw [List.append_assoc, List.singleton_append, complete_sentence hx hblank]
      exact .inr ⟨hdone, ss', rfl, hcomplete⟩
    · rwa [rowsOf_cons, ← List.append_assoc]
    · rw [rowsOf_cons, ← List.append_assoc]

theorem owed_done (ws : List Bytes) (r : List Attrs × Attrs) (hblank : "" ∉ st.sentence)
    (hdone : kindOf st.sentence = some "!done") (hrows : st.rows.length ≤ MAX_ROWS)
    (hbytes : st.total ≤ MAX_BYTES) (hwords : st.word_count + 1 ≤ MAX_WORDS) :
    Owed st ([] :: ws) r ↔ st.denied = false ∧ ws = [] ∧ r = (st.rows, attrsOf st.sentence.tail) := by
  have hx := ne_nil_of_kindOf hdone
  rw [owed_word decode_nil]
  unfold Owed State.counted
  dsimp only
  constructor
  · rintro ⟨rest, ss, last, hrest, hcomplete, -, hden, -, -, -, rfl⟩
    rw [List.append_assoc, List.singleton_append, complete_sentence hx hblank] at hcomplete
    obtain ⟨-, rfl, rfl, rfl⟩ | ⟨h, -⟩ := hcomplete
    · refine ⟨hden, ?_, ?_⟩
      · cases ws with
        | nil => rfl
        | cons raw ws =>
            obtain ⟨_, _, -, -, h⟩ := mapM_decode_cons.mp hrest
            cases h
      · show (st.rows ++ [], _) = _
        rw [List.append_nil]
    · exact absurd hdone h
  · rintro ⟨hden, rfl, rfl⟩
    refine ⟨[], [], st.sentence, rfl, ?_, fun x hx => absurd hx List.not_mem_nil, hden, hwords, hbytes,
      ?_, ?_⟩
    · rw [List.append_assoc, List.singleton_append, complete_sentence hx hblank]
      exact .inl ⟨hdone, rfl, rfl, rfl⟩
    · show (st.rows ++ []).length ≤ MAX_ROWS
      rwa [List.append_nil]
    · show _ = (st.rows ++ [], _)
      rw [List.append_nil]

/-- A sentence that has begun has no empty word in it, and there are not too many rows. -/
structure State.Sound (st : State) : Prop where
  words : "" ∉ st.sentence
  rows : st.rows.length ≤ MAX_ROWS

theorem count_eq (st : State) (size : Nat) :
    (st.count size = .ok (st.counted size) ∧ st.total + size ≤ MAX_BYTES ∧
      st.word_count + 1 ≤ MAX_WORDS) ∨
    ((∃ e, st.count size = .error e) ∧ (size > MAX_BYTES ∨ st.total + size > MAX_BYTES ∨
      st.word_count + 1 > MAX_WORDS)) := by
  unfold State.count
  dsimp only
  split
  · rename_i h
    exact .inr ⟨⟨_, rfl⟩, h⟩
  · rename_i h
    exact .inl ⟨rfl, by omega, by omega⟩

/-- What one word comes to, against what is owed behind it. -/
def Follows (st : State) (raw : Bytes) (ws : List Bytes) (r : List Attrs × Attrs)
    (x : Except Exn Outcome) : Prop :=
  (∃ st', x = .ok (.more st') ∧ st'.Sound ∧ (Owed st (raw :: ws) r ↔ Owed st' ws r)) ∨
    (∃ rows attrs, x = .ok (.answer rows attrs) ∧
      (Owed st (raw :: ws) r ↔ ws = [] ∧ r = (rows, attrs))) ∨
    (∃ e, x = .error e ∧ ¬ Owed st (raw :: ws) r)

/-- The end of a sentence that is not the last one, and does not refuse. -/
theorem follows_behind {x : Except Exn Outcome} {ws : List Bytes} {r : List Attrs × Attrs}
    (hst : st.Sound) (hx : st.sentence ≠ []) (hdone : kindOf st.sentence ≠ some "!done")
    (href : ¬ Refused st.sentence) (hok : (st.behind st.sentence).rows.length ≤ MAX_ROWS →
      x = .ok (.more (st.behind st.sentence)))
    (herr : MAX_ROWS < (st.behind st.sentence).rows.length → ∃ e, x = .error e) :
    Follows st [] ws r x := by
  have howed := owed_sentence ws r hx hst.words hdone
  rw [and_iff_right href] at howed
  by_cases hrows : (st.behind st.sentence).rows.length ≤ MAX_ROWS
  · exact .inl ⟨_, hok hrows, ⟨List.not_mem_nil, hrows⟩, howed⟩
  · obtain ⟨e, he⟩ := herr (by omega)
    refine .inr (.inr ⟨e, he, ?_⟩)
    rw [howed]
    rintro ⟨-, ss, -, -, -, -, -, -, -, hle, -⟩
    rw [List.length_append] at hle
    omega

theorem follows_terminator (hst : st.Sound) (hbytes : st.total ≤ MAX_BYTES)
    (hwords : st.word_count + 1 ≤ MAX_WORDS) (ws : List Bytes) (r : List Attrs × Attrs) :
    Follows st [] ws r (st.counted 0).terminator := by
  unfold State.terminator
  rw [show (st.counted 0).sentence = st.sentence from rfl]
  cases hsentence : st.sentence with
  | nil => exact .inl ⟨_, rfl, ⟨hst.words, hst.rows⟩, owed_blank hsentence⟩
  | cons kind rest =>
      have hx : st.sentence ≠ [] := hsentence ▸ List.cons_ne_nil _ _
      have hkind : kindOf st.sentence = some kind := by rw [hsentence]; rfl
      have hattrs : st.sentence.tail = rest := by rw [hsentence]; rfl
      dsimp only
      by_cases hfatal : kind = "!fatal"
      · rw [if_pos hfatal]
        refine .inr (.inr ⟨_, rfl, ?_⟩)
        rw [owed_sentence ws r hx hst.words (by rw [hkind, hfatal]; decide)]
        exact fun h => h.1 (.inr (by rw [hkind, hfatal]))
      rw [if_neg hfatal]
      by_cases hdone : kind = "!done"
      · rw [if_pos hdone]
        have howed := owed_done ws r hst.words (by rw [hkind, hdone]) hst.rows hbytes hwords
        rw [hattrs] at howed
        cases hden : st.denied with
        | false =>
            rw [hden, eq_self_iff_true, true_and] at howed
            refine .inr (.inl ⟨st.rows, attrsOf rest, ?_, howed⟩)
            subst hdone
            simp [State.counted, hden]
        | true =>
            refine .inr (.inr ⟨.routerError
              "API request denied; check permissions and RouterOS support", ?_, ?_⟩)
            · simp [State.counted, hden]
            · rw [howed, hden]
              exact fun h => Bool.noConfusion h.1
      rw [if_neg hdone]
      have hdone' : kindOf st.sentence ≠ some "!done" := by
        rw [hkind]
        exact fun h => hdone (Option.some.inj h)
      by_cases htrap : kind = "!trap"
      · -- what a refusal leads to owes nothing, and neither does what comes before it
        have hre : kind ≠ "!re" := by
          rw [htrap]
          decide
        rw [if_neg hre]
        refine .inl ⟨_, rfl, ⟨List.not_mem_nil, hst.rows⟩, iff_of_false ?_ ?_⟩
        · rw [owed_sentence ws r hx hst.words hdone']
          exact fun h => h.1 (.inl (by rw [hkind, htrap]))
        · rintro ⟨-, -, -, -, -, -, hden, -⟩
          simp [htrap] at hden
      · have href : ¬ Refused st.sentence := by
          unfold Refused
          rw [hkind, Option.some.injEq, Option.some.injEq]
          exact not_or.mpr ⟨htrap, hfatal⟩
        have hden : (st.denied || decide (kind = "!trap")) = st.denied := by
          rw [decide_eq_false htrap, Bool.or_false]
        apply follows_behind hst hx hdone' href
        · intro hrows
          unfold State.behind at hrows ⊢
          rw [hkind, hattrs] at hrows ⊢
          by_cases hre : kind = "!re"
          · rw [if_pos (congrArg some hre)] at hrows ⊢
            simp only [hre, if_true] at hden ⊢
            have hle : ¬ ((st.counted 0).rows ++ [attrsOf rest]).length > MAX_ROWS := Nat.not_lt.mpr hrows
            rw [if_neg hle]
            simp [State.counted]
          · rw [if_neg (fun h => hre (Option.some.inj h)), List.append_nil]
            simp [State.counted, hre, htrap]
        · intro hrows
          unfold State.behind at hrows
          rw [hkind, hattrs] at hrows
          by_cases hre : kind = "!re"
          · rw [if_pos (congrArg some hre)] at hrows
            rw [if_pos hre]
            exact ⟨_, if_pos hrows⟩
          · rw [if_neg (fun h => hre (Option.some.inj h)), List.append_nil] at hrows
            exact absurd hst.rows (Nat.not_le.mpr hrows)

/-- **One word** takes a state to one that owes what this one does. -/
theorem owed_cons (hst : st.Sound) (raw : Bytes) (ws : List Bytes) (r : List Attrs × Attrs) :
    Follows st raw ws r (st.absorb raw) := by
  unfold State.absorb
  rcases count_eq st raw.length with ⟨hcount, hbytes, hwords⟩ | ⟨⟨e, hcount⟩, hlimits⟩
  · rw [hcount, NetPulse.Lib.ok_bind]
    unfold State.handle
    by_cases hraw : raw = []
    · subst hraw
      rw [if_neg (not_not.mpr rfl)]
      exact follows_terminator hst hbytes hwords ws r
    · rw [if_pos hraw, State.word]
      cases hword : decode raw with
      | none =>
          refine .inr (.inr ⟨_, rfl, ?_⟩)
          rintro ⟨texts, ss, last, htexts, -⟩
          obtain ⟨word, -, hsome, -⟩ := mapM_decode_cons.mp htexts
          rw [hword] at hsome
          cases hsome
      | some word =>
          refine .inl ⟨_, rfl, ⟨?_, hst.rows⟩, owed_word hword⟩
          intro hmem
          rcases List.mem_append.mp hmem with hold | hnew
          · exact hst.words hold
          · exact ne_blank_of_decode hword hraw (List.mem_singleton.mp hnew).symm
  · rw [hcount]
    exact .inr (.inr ⟨e, rfl, not_owed_of_limits hlimits⟩)

/-- **The words of a loop that returns** are those of a reply that is answered. -/
theorem absorbs_iff (hst : st.Sound) (ws : List Bytes) (r : List Attrs × Attrs) :
    Absorbs st ws r ↔ Owed st ws r := by
  induction ws generalizing st with
  | nil => exact iff_of_false id (not_owed_nil hst.words)
  | cons raw ws ih =>
      rw [Absorbs]
      rcases owed_cons hst raw ws r with ⟨st', habsorb, hst', howed⟩ | ⟨rows, attrs, habsorb, howed⟩ |
        ⟨e, habsorb, hnot⟩
      · rw [habsorb, howed]
        exact ih hst'
      · rw [habsorb, howed]
      · rw [habsorb]
        exact iff_of_false id hnot

theorem sound_start : State.start.Sound := ⟨List.not_mem_nil, Nat.zero_le _⟩

theorem replyLoop_answered {r : List Attrs × Attrs} :
    s.replyLoop State.start 0 = .ok r ↔ Answered s.reply r := by
  rw [replyLoop_ok_iff]
  constructor
  · rintro ⟨ws, fin, hws, habs⟩
    obtain ⟨texts, ss, last, htexts, hcomplete, href, -, hwords, hbytes, hrows, rfl⟩ :=
      (absorbs_iff sound_start ws r).mp habs
    change 0 + ws.length ≤ MAX_WORDS at hwords
    change 0 + (ws.map List.length).sum ≤ MAX_BYTES at hbytes
    rw [Nat.zero_add] at hwords hbytes
    exact ⟨ws, fin, texts, ss, last, hws, htexts, hcomplete, href, hwords, hbytes, hrows, rfl⟩
  · rintro ⟨ws, fin, texts, ss, last, hws, htexts, hcomplete, href, hwords, hbytes, hrows, rfl⟩
    rw [← Nat.zero_add ws.length] at hwords
    rw [← Nat.zero_add (ws.map List.length).sum] at hbytes
    refine ⟨ws, fin, hws, (absorbs_iff sound_start ws _).mpr ?_⟩
    exact ⟨texts, ss, last, htexts, hcomplete, href, rfl, hwords, hbytes, hrows, rfl⟩

/-! ## §5 Failures and limits -/

/-- What can be raised: only a socket that gives up raises an error of the system. -/
def Raised (reply : Nat → Place) : Exn → Prop
  | .routerError _ => True
  | .unicodeError => True
  | .osError _ => ∃ pos, reply pos = .silent

theorem raised_take {reply : Nat → Place} {n : Nat} {e : Exn} (h : take reply n pos = .error e) :
    Raised reply e := by
  induction n generalizing pos with
  | zero => cases h
  | succ n ih =>
      rw [take] at h
      cases hpos : reply pos with
      | byte b =>
          rw [hpos] at h
          dsimp only at h
          cases hrest : take reply n (pos + 1) with
          | error e' =>
              rw [hrest] at h
              cases h
              exact ih hrest
          | ok xs => rw [hrest] at h; cases h
      | closed | late =>
          rw [hpos] at h
          cases h
          trivial
      | silent =>
          rw [hpos] at h
          cases h
          exact ⟨pos, hpos⟩

theorem raised_recv {size : Nat} {e : Exn} (h : s.recv size pos = .error e) : Raised s.reply e := by
  rw [recv_eq] at h
  cases htake : take s.reply size pos with
  | error e' =>
      rw [htake] at h
      cases h
      exact raised_take htake
  | ok xs => rw [htake] at h; cases h

theorem raised_length {e : Exn} (h : s.length pos = .error e) : Raised s.reply e := by
  rcases NetPulse.Lib.bind_eq_error.mp h with hrecv | ⟨⟨head, p⟩, -, h⟩
  · exact raised_recv hrecv
  · -- the bytes behind the first one, or a first byte that is none
    dsimp only at h
    have hext {k : Nat} {value : Bytes × Nat → Nat × Nat}
        (h : (s.recv k p >>= fun r => pure (value r)) = Except.error e) : Raised s.reply e := by
      rcases NetPulse.Lib.bind_eq_error.mp h with hrecv | ⟨r, -, h⟩
      · exact raised_recv hrecv
      · cases h
    unfold Sock.lengthFrom at h
    split_ifs at h
    · cases h
    · exact hext h
    · exact hext h
    · exact hext h
    · exact hext h
    · cases h
      trivial

theorem raised_handle {reply : Nat → Place} {raw : Bytes} {e : Exn}
    (h : st.handle raw = .error e) : Raised reply e := by
  unfold State.handle at h
  split at h
  · unfold State.word at h
    split at h
    · cases h
      trivial
    · cases h
  · unfold State.terminator at h
    split at h
    · cases h
    · dsimp only at h
      split_ifs at h
      all_goals cases h
      all_goals trivial

theorem raised_fetch {e : Exn} (h : s.fetch st pos = .error e) : Raised s.reply e := by
  rcases NetPulse.Lib.bind_eq_error.mp h with hlength | ⟨⟨size, p⟩, -, h⟩
  · exact raised_length hlength
  rcases NetPulse.Lib.bind_eq_error.mp h with hcount | ⟨st', -, h⟩
  · unfold State.count at hcount
    dsimp only at hcount
    split at hcount
    · cases hcount
      trivial
    · cases hcount
  · dsimp only at h
    split at h
    · rcases NetPulse.Lib.bind_eq_error.mp h with hrecv | ⟨r, -, h⟩
      · exact raised_recv hrecv
      · cases h
    · cases h

theorem raised_replyLoop {e : Exn} (h : s.replyLoop st pos = .error e) : Raised s.reply e := by
  fun_induction Sock.replyLoop s st pos with
  | case1 st pos e' hround =>
      cases h
      rcases NetPulse.Lib.bind_eq_error.mp hround with hfetch | ⟨⟨st', raw, p⟩, -, hround⟩
      · exact raised_fetch hfetch
      rcases NetPulse.Lib.bind_eq_error.mp hround with hhandle | ⟨o, -, hround⟩
      · exact raised_handle hhandle
      · cases hround
  | case2 => cases h
  | case3 st pos st' pos' hround ih => exact ih h

/-- The states in which a round begins. -/
inductive Sock.Reached (s : Sock) : State → Nat → Prop
  | start : s.Reached State.start 0
  | next {st st' : State} {pos pos' : Nat} : s.Reached st pos →
      s.round st pos = .ok (.more st', pos') → s.Reached st' pos'

/-- Up to this place as many words, with as many bytes, have been read as are counted, and not too
many of them; and not too many rows are kept. -/
structure Kept (reply : Nat → Place) (st : State) (pos : Nat) : Prop where
  read : ∃ ws, WordsAt reply 0 ws pos ∧ ws.length = st.word_count ∧
    (ws.map List.length).sum = st.total
  words : st.word_count ≤ MAX_WORDS
  bytes : st.total ≤ MAX_BYTES
  rows : st.rows.length ≤ MAX_ROWS

theorem WordsAt.snoc {reply : Nat → Place} {ws : List Bytes} {ls raw : Bytes}
    (h : WordsAt reply pos ws pos') (hform : LengthForm ls raw.length)
    (harr : Arrives reply pos' (ls ++ raw)) :
    WordsAt reply pos (ws ++ [raw]) (pos' + (ls ++ raw).length) := by
  induction h with
  | nil pos => exact .cons hform harr (.nil _)
  | cons hform' harr' _ ih => exact .cons hform' harr' (ih harr)

/-- A word is read only within the limits. -/
theorem Kept.fetch {st' : State} {raw : Bytes} (h : Kept s.reply st pos)
    (hfetch : s.fetch st pos = .ok (st', raw, pos')) : Kept s.reply st' pos' := by
  obtain ⟨ws, hws, hlen, hsum⟩ := h.read
  obtain ⟨rfl, hbytes, hwords, ls, hform, harr, rfl⟩ := fetch_ok hfetch
  refine ⟨⟨ws ++ [raw], hws.snoc hform harr, ?_, ?_⟩, hwords, hbytes, h.rows⟩
  · rw [List.length_append, hlen, List.length_singleton]
  · rw [List.map_append, List.sum_append, hsum, List.map_singleton, List.sum_singleton]

theorem rows_handle {st' : State} {raw : Bytes} (h : st.handle raw = .ok (.more st'))
    (hrows : st.rows.length ≤ MAX_ROWS) : st'.rows.length ≤ MAX_ROWS := by
  unfold State.handle at h
  split at h
  · unfold State.word at h
    split at h
    · cases h
    · cases h
      exact hrows
  · unfold State.terminator at h
    split at h
    · cases h
      exact hrows
    · dsimp only at h
      split_ifs at h with _ _ _ _ hmany
      all_goals cases h
      · exact Nat.not_lt.mp hmany
      · exact hrows

theorem kept_reached (h : s.Reached st pos) : Kept s.reply st pos := by
  induction h with
  | start => exact ⟨⟨[], .nil 0, rfl, rfl⟩, Nat.zero_le _, Nat.zero_le _, Nat.zero_le _⟩
  | next _ hround ih =>
      obtain ⟨⟨st₁, raw, p⟩, hfetch, hround⟩ := NetPulse.Lib.bind_eq_ok.mp hround
      obtain ⟨o, hhandle, hround⟩ := NetPulse.Lib.bind_eq_ok.mp hround
      cases hround
      have hkept := ih.fetch hfetch
      obtain ⟨htotal, hcount⟩ := handle_more hhandle
      refine ⟨?_, ?_, ?_, rows_handle hhandle hkept.rows⟩
      · rw [htotal, hcount]
        exact hkept.read
      · rw [hcount]
        exact hkept.words
      · rw [htotal]
        exact hkept.bytes

theorem raised_encode {reply : Nat → Place} {words : List String} {e : Exn}
    (h : encodeSentence words = .error e) : Raised reply e := by
  have hword : ∀ word, encodeWord word = .error e → Raised reply e := by
    intro word h
    rcases NetPulse.Lib.bind_eq_error.mp h with h | ⟨ls, -, h⟩
    · unfold encodeLength at h
      split_ifs at h
      all_goals cases h
      trivial
    · cases h
  rcases NetPulse.Lib.bind_eq_error.mp h with h | ⟨parts, -, h⟩
  · induction words with
    | nil => cases h
    | cons word words ih =>
        rw [List.mapM_cons] at h
        rcases NetPulse.Lib.bind_eq_error.mp h with h | ⟨part, -, h⟩
        · exact hword word h
        rcases NetPulse.Lib.bind_eq_error.mp h with h | ⟨parts, -, h⟩
        · exact ih (NetPulse.Lib.bind_eq_error.mpr (.inl h)) h
        · cases h
  · cases h

end NetPulse.RouterOs
