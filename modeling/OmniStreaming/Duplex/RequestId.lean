import Mathlib.Data.List.Infix
import OmniStreaming.Duplex.Vocoder

/-!
# Request ids

The server names a session `stage_0_` followed by a UUID, a turn by its session and the second it
starts in, and a stage-1 or stage-2 request by its turn, its stage and its number. The orchestrator
and the stages recover the parts by tests on the text.

`SessionId` and `TurnId` are the ids that the server makes. The lemmas say what the tests find in
the request ids of such a turn: the part before the first `_stage_` is the turn, and only the last
stage-2 request has `_FINAL` in its id.
-/

namespace OmniStreaming

open List Nat

variable {ρ : Type*}

/-! ## The texts -/

/-- The text of a request id. -/
abbrev Key := List Char

-- all tests whether an id is in a list of ids rest on this one instance
instance : LawfulBEq Key := inferInstanceAs (LawfulBEq (List Char))

def stage1Mark : Key := ['_', 's', 't', 'a', 'g', 'e', '_', '1']

def stage2Mark : Key := ['_', 's', 't', 'a', 'g', 'e', '_', '2']

def finalMark : Key := ['_', 'F', 'I', 'N', 'A', 'L']

/-- The id `{session_id}_{time}` of a turn. -/
def turnIdOf (session : Key) (time : ℕ) : Key := session ++ '_' :: toDigits 10 time

/-- The id `{turn_id}_stage_1_{k}`. -/
def stage1Key (turnId : Key) (k : ℕ) : Key := turnId ++ (stage1Mark ++ '_' :: toDigits 10 k)

/-- The id `{turn_id}_stage_2_{k}`, with `_FINAL` behind it for the last window. -/
def stage2Key (turnId : Key) (t : Stage2Task ρ) : Key :=
  turnId ++ (stage2Mark ++ '_' :: toDigits 10 t.seq ++ if t.isFinal then finalMark else [])

/-- `s.rsplit("_", 1)`, when there is an underscore. -/
def rsplitUnderscore (s : Key) : Option (Key × Key) :=
  match s.reverse.dropWhile (· ≠ '_') with
  | [] => none
  | _ :: front => some (front.reverse, (s.reverse.takeWhile (· ≠ '_')).reverse)

/-- `int(s)` for a text of decimal digits. -/
def parseInt (s : Key) : Option ℕ :=
  if s ≠ [] ∧ s.all Char.isDigit then
    some (s.foldl (fun n c => 10 * n + (c.toNat - '0'.toNat)) 0)
  else none

/-- The number at the end of a request id. -/
def trailingIndex (rid : Key) : Option ℕ :=
  (rsplitUnderscore rid).bind fun parts => parseInt parts.2

/-- The ids that the stop handler drains: those that start like the stopping one and have a larger
number. `int` raises if one does not end in a number. -/
def stopTargets (keys : List Key) (subReqId : Key) : Option (List Key) :=
  (rsplitUnderscore subReqId).bind fun parts =>
    (parseInt parts.2).bind fun currentIdx =>
      ((keys.filter (parts.1.isPrefixOf ·)).mapM fun rid =>
        (trailingIndex rid).map fun n => (rid, n)).map fun found =>
          (found.filter (currentIdx < ·.2)).map Prod.fst

lemma prefix_stage1Key (turnId : Key) (k : ℕ) : turnId <+: stage1Key turnId k :=
  prefix_append _ _

lemma prefix_stage2Key (turnId : Key) (t : Stage2Task ρ) : turnId <+: stage2Key turnId t :=
  prefix_append _ _

def stageMark : Key := ['_', 's', 't', 'a', 'g', 'e', '_']

/-- `s.split(mark)[0]`: the text before the first occurrence of the mark. -/
def splitHead (mark : Key) : Key → Key
  | [] => []
  | c :: cs => if mark.isPrefixOf (c :: cs) then [] else c :: splitHead mark cs

/-! ## The ids that the server makes -/

/-- The characters of a UUID. -/
def uuidChars : List Char :=
  ['0', '1', '2', '3', '4', '5', '6', '7', '8', '9', 'a', 'b', 'c', 'd', 'e', 'f', '-']

/-- A session id, given by its UUID. -/
structure SessionId where
  uuid : Key
  uuid_chars : ∀ c ∈ uuid, c ∈ uuidChars
  uuid_length : uuid.length = 36
  deriving DecidableEq

/-- The session id whose UUID repeats one character. -/
def SessionId.repeated (c : Char) (h : c ∈ uuidChars) : SessionId where
  uuid := replicate 36 c
  uuid_chars _ hd := eq_of_mem_replicate hd ▸ h
  uuid_length := length_replicate

/-- The text `stage_0_{uuid}`. -/
def SessionId.text (s : SessionId) : Key := ['s', 't', 'a', 'g', 'e', '_', '0', '_'] ++ s.uuid

/-- A turn id: a session and a second of the years 2001 to 2286, which has ten digits. -/
structure TurnId where
  session : SessionId
  time : ℕ
  time_ge : 10 ^ 9 ≤ time
  time_lt : time < 10 ^ 10
  deriving DecidableEq

/-- The text `{session_id}_{time}`. -/
def TurnId.text (t : TurnId) : Key := turnIdOf t.session.text t.time

def someTurn : TurnId where
  session := .repeated '7' (by decide)
  time := 1700000000
  time_ge := by decide
  time_lt := by decide

def foreignTurn : TurnId := { someTurn with session := .repeated 'e' (by decide) }

/-- The request ids of a turn: the turn id itself at stage 0, and the numbered ids of the other
stages. -/
inductive TurnId.Owns (t : TurnId) : Key → Prop
  | stage0 : t.Owns t.text
  | stage1 (k : ℕ) : t.Owns (stage1Key t.text k)
  | stage2 (k : ℕ) (isFinal : Bool) :
    t.Owns (stage2Key t.text (⟨k, isFinal, []⟩ : Stage2Task Unit))

/-- A request id that a turn enters while it runs. -/
inductive SubRequest
  | stage1 (k : ℕ)
  | stage2 (k : ℕ) (isFinal : Bool)
  deriving Repr, DecidableEq

/-- The text of the id. -/
def SubRequest.key (t : TurnId) : SubRequest → Key
  | .stage1 k => stage1Key t.text k
  | .stage2 k isFinal => stage2Key t.text (⟨k, isFinal, []⟩ : Stage2Task Unit)

/-- A turn owns the ids that it enters. -/
lemma SubRequest.owns_key (t : TurnId) (r : SubRequest) : t.Owns (r.key t) := by
  cases r with
  | stage1 k => exact .stage1 k
  | stage2 k isFinal => exact .stage2 k isFinal

/-- The request id of a task: that of stage 0, or one that the turn enters. -/
def taskRid (t : TurnId) (r : Option SubRequest) : Key := r.elim t.text (SubRequest.key t)

/-- A turn owns the ids of its tasks. -/
lemma owns_taskRid (t : TurnId) (r : Option SubRequest) : t.Owns (taskRid t r) := by
  cases r with
  | none => exact .stage0
  | some r => exact r.owns_key t

/-! ## What the tests find -/

/-- No `_` at the end of the text, and none before an `s`: no `_stage_` can start in it, whatever
follows. -/
def NoMarkStarts (k : Key) : Prop :=
  ∀ front back, k = front ++ '_' :: back → ∃ c rest, back = c :: rest ∧ c ≠ 's'

variable {k rid : Key} {c : Char} {u t : TurnId} {a : SessionId}

lemma noMarkStarts_of_not_mem (h : '_' ∉ k) : NoMarkStarts k := by
  rintro front back rfl
  exact absurd (by simp) h

lemma NoMarkStarts.tail (h : NoMarkStarts (c :: k)) : NoMarkStarts k := by
  rintro front back rfl
  exact h (c :: front) back rfl

lemma NoMarkStarts.cons_of_ne (h : NoMarkStarts k) (hc : c ≠ '_') : NoMarkStarts (c :: k) := by
  intro front back heq
  cases front with
  | nil => exact absurd (cons.inj heq).1 hc
  | cons d front => exact h front back (cons.inj heq).2

lemma NoMarkStarts.underscore (h : NoMarkStarts (c :: k)) (hc : c ≠ 's') :
    NoMarkStarts ('_' :: c :: k) := by
  intro front back heq
  cases front with
  | nil => exact ⟨c, k, (cons.inj heq).2.symm, hc⟩
  | cons d front => exact h front back (cons.inj heq).2

lemma NoMarkStarts.append {u : Key} (h : NoMarkStarts k) (hu : '_' ∉ u) :
    NoMarkStarts (u ++ k) := by
  induction u with
  | nil => exact h
  | cons c u ih =>
    rw [mem_cons, not_or] at hu
    exact (ih hu.2).cons_of_ne (Ne.symm hu.1)

lemma NoMarkStarts.not_isPrefixOf (h : NoMarkStarts (c :: k)) (rest : Key) :
    stageMark.isPrefixOf (c :: (k ++ rest)) = false := by
  rw [Bool.eq_false_iff, Ne, isPrefixOf_iff_prefix]
  rintro ⟨back, heq⟩
  obtain ⟨rfl, htail⟩ := cons.inj heq
  obtain ⟨d, k', rfl, hd⟩ := h [] k rfl
  exact hd (cons.inj htail).1.symm

lemma splitHead_append {rest : Key} (h : NoMarkStarts k) :
    splitHead stageMark (k ++ (stageMark ++ rest)) = k := by
  induction k with
  | nil => simp [splitHead, stageMark, isPrefixOf]
  | cons c k ih =>
    rw [cons_append, splitHead, h.not_isPrefixOf, ih h.tail]
    rfl

/-- A text without marks is not split. -/
lemma splitHead_self (h : NoMarkStarts k) : splitHead stageMark k = k := by
  induction k with
  | nil => rfl
  | cons c k ih =>
    have hnot := h.not_isPrefixOf []
    rw [append_nil] at hnot
    rw [splitHead, hnot, ih h.tail]
    rfl

/-- No `_stage_` starts in a number. -/
lemma noMarkStarts_toDigits (n : ℕ) : NoMarkStarts (toDigits 10 n) :=
  noMarkStarts_of_not_mem underscore_not_in_toDigits

/-- In a turn id no `_stage_` starts. -/
lemma noMarkStarts_text (t : TurnId) : NoMarkStarts t.text := by
  have huuid : '_' ∉ t.session.uuid := fun h => absurd (t.session.uuid_chars _ h) (by decide)
  have hdigits : NoMarkStarts ('_' :: toDigits 10 t.time) := by
    have hall := noMarkStarts_toDigits t.time
    cases hd : toDigits 10 t.time with
    | nil => exact absurd hd toDigits_ne_nil
    | cons c cs =>
      rw [hd] at hall
      refine hall.underscore ?_
      rintro rfl
      exact absurd (isDigit_of_mem_toDigits (by decide) (by decide)
        (hd ▸ mem_cons_self : 's' ∈ toDigits 10 t.time)) (by decide)
  have hrest : NoMarkStarts ('_' :: (t.session.uuid ++ '_' :: toDigits 10 t.time)) := by
    have hall := hdigits.append huuid
    cases hu : t.session.uuid with
    | nil =>
      rw [hu] at hall
      exact hall.underscore (by decide)
    | cons c cs =>
      rw [hu] at hall
      refine hall.underscore ?_
      rintro rfl
      exact absurd (t.session.uuid_chars 's' (by simp [hu])) (by decide)
  exact ((hrest.cons_of_ne (by decide : '0' ≠ '_')).underscore (by decide)).append
    (by decide : '_' ∉ ['s', 't', 'a', 'g', 'e'])

@[simp] lemma splitHead_text (t : TurnId) : splitHead stageMark t.text = t.text :=
  splitHead_self (noMarkStarts_text t)

/-- The turn of a stage-1 request. -/
@[simp] lemma splitHead_stage1Key (t : TurnId) (k : ℕ) :
    splitHead stageMark (stage1Key t.text k) = t.text :=
  splitHead_append (noMarkStarts_text t)

/-- The turn of a stage-2 request. -/
@[simp] lemma splitHead_stage2Key (t : TurnId) (task : Stage2Task ρ) :
    splitHead stageMark (stage2Key t.text task) = t.text :=
  splitHead_append (noMarkStarts_text t)

/-- Texts are cut at their first `_` in one way only. -/
lemma append_underscore_inj {x y a b : Key} (hx : '_' ∉ x) (hy : '_' ∉ y)
    (h : x ++ '_' :: a = y ++ '_' :: b) : x = y ∧ a = b := by
  induction x generalizing y with
  | nil =>
    cases y with
    | nil => exact ⟨rfl, (cons.inj h).2⟩
    | cons d y => exact absurd (by simp [← (cons.inj h).1]) hy
  | cons c x ih =>
    cases y with
    | nil => exact absurd (by simp [(cons.inj h).1]) hx
    | cons d y =>
      obtain ⟨rfl, htail⟩ := cons.inj h
      rw [mem_cons, not_or] at hx hy
      obtain ⟨rfl, rfl⟩ := ih hx.2 hy.2 htail
      exact ⟨rfl, rfl⟩

/-- The time of a turn has ten digits. -/
lemma length_toDigits_time (t : TurnId) : (toDigits 10 t.time).length = 10 := by
  have hle := (length_toDigits_le_iff (by decide : 1 < 10) (by decide : 0 < 10)).mpr t.time_lt
  have hge := mt (length_toDigits_le_iff (by decide : 1 < 10) (by decide : 0 < 9)).mp
    (Nat.not_lt.mpr t.time_ge)
  omega

/-- Two turns of which one has an id that continues the id of the other are the same. -/
lemma TurnId.eq_of_text_append {x y : Key} (h : t.text ++ x = u.text ++ y) : t = u := by
  have hbody : t.session.uuid ++ '_' :: (toDigits 10 t.time ++ x) =
      u.session.uuid ++ '_' :: (toDigits 10 u.time ++ y) := by
    simpa [TurnId.text, turnIdOf, SessionId.text] using h
  have hno : ∀ v : TurnId, '_' ∉ v.session.uuid := fun v hv =>
    absurd (v.session.uuid_chars _ hv) (by decide)
  obtain ⟨huuid, hdigits⟩ := append_underscore_inj (hno t) (hno u) hbody
  have htime := (append_inj hdigits
    ((length_toDigits_time t).trans (length_toDigits_time u).symm)).1
  have hval := congrArg (ofDigitChars 10 · 0) htime
  simp only [ofDigitChars_toDigits (by decide : 1 < 10) (by decide)] at hval
  obtain ⟨⟨_, _, _⟩, _, _, _⟩ := t
  obtain ⟨⟨_, _, _⟩, _, _, _⟩ := u
  simp_all

/-- The text of an id determines it. -/
lemma TurnId.text_injective : Function.Injective TurnId.text := fun _ _ h =>
  TurnId.eq_of_text_append (congrArg (· ++ []) h)

/-- A request id that starts with the id of a turn is one of that turn. -/
lemma TurnId.text_prefix_stage1Key {k : ℕ} : t.text <+: stage1Key u.text k ↔ t = u := by
  constructor
  · rintro ⟨x, hx⟩
    exact TurnId.eq_of_text_append hx
  · rintro rfl
    exact prefix_stage1Key _ k

/-- A stage-1 request id has no `_FINAL` in it. -/
lemma not_final_infix_stage1Key (t : TurnId) (k : ℕ) : ¬ finalMark <:+: stage1Key t.text k := by
  intro h
  have hmem : 'F' ∈ stage1Key t.text k := h.subset (by decide)
  have hdigit : ∀ n, 'F' ∉ toDigits 10 n := fun n hn =>
    absurd (isDigit_of_mem_toDigits (by decide) (by decide) hn) (by decide)
  have huuid : 'F' ∉ t.session.uuid := fun hu => absurd (t.session.uuid_chars _ hu) (by decide)
  simp [stage1Key, stage1Mark, TurnId.text, turnIdOf, SessionId.text, hdigit, huuid] at hmem

/-- An occurrence of a text does not start in a part that lacks its first character. -/
lemma infix_of_infix_append {w u v : Key} (hu : c ∉ u) (h : c :: w <:+: u ++ v) :
    c :: w <:+: v := by
  induction u with
  | nil => exact h
  | cons d u ih =>
    rw [mem_cons, not_or] at hu
    rcases infix_cons_iff.mp h with hpre | hoccurs
    · exact absurd (cons_prefix_cons.mp hpre).1 hu.1
    · exact ih hu.2 hoccurs

/-- What stands behind the turn id in a request id. -/
lemma TurnId.Owns.exists_suffix (h : t.Owns rid) :
    ∃ suffix, rid = t.text ++ suffix ∧
      (suffix = [] ∨ ∃ d rest, suffix = '_' :: ['s', 't', 'a', 'g', 'e', '_', d] ++ rest ∧
        d ≠ '0' ∧ 's' ∉ d :: rest) := by
  have hdigit : ∀ n, 's' ∉ toDigits 10 n := fun n hn =>
    absurd (isDigit_of_mem_toDigits (by decide) (by decide) hn) (by decide)
  cases h with
  | stage0 => exact ⟨[], by simp, .inl rfl⟩
  | stage1 k => exact ⟨_, rfl, .inr ⟨'1', _, rfl, by decide, by simp [hdigit]⟩⟩
  | stage2 k isFinal =>
    refine ⟨_, rfl, .inr ⟨'2', _, rfl, by decide, ?_⟩⟩
    cases isFinal with
    | true => simp [hdigit, finalMark]
    | false => simp [hdigit]

/-- The id of a session stands only in request ids of its own turns. -/
lemma SessionId.eq_of_infix (h : t.Owns rid) (hoccurs : a.text <:+: rid) : a = t.session := by
  obtain ⟨suffix, rfl, hsuffix⟩ := h.exists_suffix
  have hdigit : ∀ n, 's' ∉ toDigits 10 n := fun n hn =>
    absurd (isDigit_of_mem_toDigits (by decide) (by decide) hn) (by decide)
  have huuid : 's' ∉ t.session.uuid := fun hu => absurd (t.session.uuid_chars _ hu) (by decide)
  have htext : t.text ++ suffix = 's' :: (['t', 'a', 'g', 'e', '_', '0', '_'] ++
      (t.session.uuid ++ ('_' :: toDigits 10 t.time)) ++ suffix) := by
    simp [TurnId.text, turnIdOf, SessionId.text]
  rw [htext] at hoccurs
  rcases infix_cons_iff.mp hoccurs with hpre | hoccurs
  · -- at the front both ids have the same length
    obtain ⟨rest, heq⟩ := hpre
    have hbody : a.uuid ++ rest =
        t.session.uuid ++ ('_' :: toDigits 10 t.time ++ suffix) := by
      simpa [SessionId.text] using heq
    have hsame := (append_inj hbody (a.uuid_length.trans t.session.uuid_length.symm)).1
    cases a
    cases hs : t.session
    simp_all
  · -- the only other place with an `s` is the mark of a later stage
    have hin : a.text <:+: suffix := infix_of_infix_append (by simp [hdigit, huuid]) hoccurs
    rcases hsuffix with rfl | ⟨d, rest, rfl, hd, hrest⟩
    · exact absurd (infix_nil.mp hin) (by simp [SessionId.text])
    · have hin := infix_of_infix_append (u := ['_']) (by decide) hin
      rcases infix_cons_iff.mp hin with hpre | hin
      · obtain ⟨_, heq⟩ := hpre
        have hzero : '0' = d := Option.some.inj (congrArg (fun l : Key => l[6]?) heq)
        exact absurd hzero.symm hd
      · have hs : 's' ∈ ['t', 'a', 'g', 'e', '_'] ++ d :: rest := hin.subset (by simp)
        rcases mem_append.mp hs with hs | hs
        · exact absurd hs (by decide)
        · exact absurd hs hrest

/-- The ids of a turn start with it. -/
lemma TurnId.Owns.startsWith (h : t.Owns rid) : t.text <+: rid := by
  obtain ⟨suffix, rfl, -⟩ := h.exists_suffix
  exact prefix_append _ _

lemma TurnId.Owns.splitHead (h : t.Owns rid) : splitHead stageMark rid = t.text := by
  cases h with
  | stage0 => exact splitHead_text t
  | stage1 k => exact splitHead_stage1Key t k
  | stage2 k isFinal => exact splitHead_stage2Key t _

lemma TurnId.Owns.eq (ht : t.Owns rid) (hu : u.Owns rid) : t = u :=
  TurnId.text_injective (ht.splitHead.symm.trans hu.splitHead)

lemma TurnId.Owns.eq_of_startsWith (ht : t.Owns rid) (hu : u.text <+: rid) : u = t := by
  obtain ⟨x, hx⟩ := hu
  obtain ⟨y, hy⟩ := ht.startsWith
  exact TurnId.eq_of_text_append (hx.trans hy.symm)

/-- A turn id starts with the session. -/
lemma SessionId.prefix_text (t : TurnId) : t.session.text <+: t.text := prefix_append _ _

/-- Texts of sessions have one length, so a text starts with at most one of them. -/
lemma SessionId.eq_of_prefix {b : SessionId} (ha : a.text <+: k) (hb : b.text <+: k) : a = b := by
  have hlen : a.text.length = b.text.length := by
    simp [SessionId.text, a.uuid_length, b.uuid_length]
  have htext : a.text = b.text := by
    rcases prefix_or_prefix_of_prefix ha hb with hpre | hpre
    · exact hpre.eq_of_length hlen
    · exact (hpre.eq_of_length hlen.symm).symm
  have huuid : a.uuid = b.uuid := append_cancel_left htext
  cases a
  cases b
  cases huuid
  rfl

/-- A request id that starts with the id of a session is one of that session. -/
lemma SessionId.eq_of_startsWith (h : t.Owns rid) (hstarts : a.text <+: rid) : a = t.session :=
  SessionId.eq_of_infix h hstarts.isInfix

end OmniStreaming
