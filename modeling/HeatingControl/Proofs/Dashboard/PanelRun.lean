import HeatingControl.Proofs.Dashboard.Panel
import Mathlib.Data.List.Nodup

/-!
# Messages are handed out once

A run of the error panel is a list of calls. The messages that it records are numbered, so that two
of the same text are told apart. A drain hands out the last of those recorded since the drain before
it, as many as the panel has room for. So no message is handed out twice, none overtakes another
one, and those that are missing made room for newer ones.
-/
namespace HeatingControl.Panel

inductive Use where
  | push (message : String)
  | log (e : Error)
  | drain
  deriving DecidableEq, Repr

def Use.message? : Use → Option String
  | .push message => some message
  | .log e => some e.message
  | .drain => none

/-- What a call hands out if it is a drain, and the panel after it. -/
def step (p : Panel) : Use → Option (List String) × Panel
  | .push message => (none, p.push message)
  | .log e => (none, p.log e)
  | .drain => (some p.drain.1, p.drain.2)

def after (p : Panel) (calls : List Use) : Panel := calls.foldl (fun p u => (p.step u).2) p

def answers (p : Panel) : List Use → List (List String)
  | [] => []
  | u :: rest => (p.step u).1.toList ++ (p.step u).2.answers rest

variable {u : Use} {m : String} {calls : List Use}

theorem Use.ne_drain (h : u.message? = some m) : u ≠ .drain := by
  rintro rfl
  cases h

theorem Use.not_mem_singleton (h : u.message? = some m) : .drain ∉ [u] := by
  rw [List.mem_singleton]
  exact (Use.ne_drain h).symm

theorem Use.drain_or_records (u : Use) : u = .drain ∨ ∃ m, u.message? = some m := by
  cases u with
  | push message => exact Or.inr ⟨message, rfl⟩
  | log e => exact Or.inr ⟨e.message, rfl⟩
  | drain => exact Or.inl rfl

theorem step_of_message (p : Panel) (h : u.message? = some m) : p.step u = (none, p.push m) := by
  cases u with
  | push message =>
    cases h
    rfl
  | log e =>
    cases h
    rfl
  | drain => cases h

theorem after_concat (p : Panel) (calls : List Use) (u : Use) :
    p.after (calls ++ [u]) = ((p.after calls).step u).2 := by
  rw [after, List.foldl_append]
  rfl

theorem step_capacity (p : Panel) (u : Use) : (p.step u).2.capacity = p.capacity := by
  cases u with
  | push message => exact push_capacity p message
  | log e => exact push_capacity p e.message
  | drain => rfl

theorem Sound.step {p : Panel} (h : p.Sound) (u : Use) : (p.step u).2.Sound := by
  cases u with
  | push message => exact h.push message
  | log e => exact h.push e.message
  | drain => exact h.drain

theorem after_capacity (p : Panel) (calls : List Use) : (p.after calls).capacity = p.capacity := by
  induction calls generalizing p with
  | nil => rfl
  | cons u rest ih => exact (ih _).trans (step_capacity p u)

theorem Sound.after {p : Panel} (h : p.Sound) (calls : List Use) : (p.after calls).Sound := by
  induction calls generalizing p with
  | nil => exact h
  | cons u rest ih => exact ih (h.step u)

def recorded (calls : List Use) : List String := calls.filterMap Use.message?

def sinceDrain (calls : List Use) : List Use := calls.rtakeWhile fun u => u ≠ .drain

def untilDrain (calls : List Use) : List Use := calls.rdropWhile fun u => u ≠ .drain

/-- For each drain the calls before it. -/
def beforeDrains : List Use → List (List Use)
  | [] => []
  | u :: rest => (if u = .drain then [[]] else []) ++ (beforeDrains rest).map (u :: ·)

theorem recorded_append (first second : List Use) :
    recorded (first ++ second) = recorded first ++ recorded second := List.filterMap_append

theorem recorded_cons (h : u.message? = some m) (rest : List Use) :
    recorded (u :: rest) = m :: recorded rest := List.filterMap_cons_some h

theorem until_append_since (calls : List Use) : untilDrain calls ++ sinceDrain calls = calls :=
  List.rdropWhile_append_rtakeWhile ..

theorem sinceDrain_drain (calls : List Use) : sinceDrain (calls ++ [.drain]) = [] :=
  List.rtakeWhile_concat_neg _ _ _ (by simp)

theorem untilDrain_drain (calls : List Use) :
    untilDrain (calls ++ [.drain]) = calls ++ [.drain] :=
  List.rdropWhile_concat_neg _ _ _ (by simp)

theorem sinceDrain_append (first : List Use) {second : List Use} (h : .drain ∉ second) :
    sinceDrain (first ++ second) = sinceDrain first ++ second := by
  induction second using List.reverseRecOn with
  | nil => rw [List.append_nil, List.append_nil]
  | append_singleton second u ih =>
    obtain ⟨hsecond, hu⟩ : .drain ∉ second ∧ u ≠ .drain := by simpa [eq_comm] using h
    rw [← List.append_assoc, sinceDrain, List.rtakeWhile_concat_pos _ _ _ (by simpa using hu),
      ← sinceDrain, ih hsecond, List.append_assoc]

theorem untilDrain_append (first : List Use) {second : List Use} (h : .drain ∉ second) :
    untilDrain (first ++ second) = untilDrain first := by
  have hall := until_append_since (first ++ second)
  rw [sinceDrain_append first h, ← List.append_assoc] at hall
  exact List.append_cancel_right
    ((List.append_cancel_right hall).trans (until_append_since first).symm)

theorem beforeDrains_append (first second : List Use) :
    beforeDrains (first ++ second) =
      beforeDrains first ++ (beforeDrains second).map (first ++ ·) := by
  induction first with
  | nil => simp [beforeDrains]
  | cons u first ih => simp [beforeDrains, ih, Function.comp_def]

theorem beforeDrains_eq_nil (h : .drain ∉ calls) : beforeDrains calls = [] := by
  induction calls with
  | nil => rfl
  | cons u rest ih =>
    obtain ⟨hu, hrest⟩ : u ≠ .drain ∧ .drain ∉ rest := by simpa [eq_comm] using h
    rw [beforeDrains, if_neg hu, ih hrest, List.map_nil, List.append_nil]

/-- Of the messages recorded since the last drain, as many of the last as there is room for. -/
theorem messages_after (capacity : Nat) (calls : List Use) :
    ((new capacity).after calls).messages =
      (recorded (sinceDrain calls)).rtake (max capacity 1) := by
  induction calls using List.reverseRecOn with
  | nil => exact (List.rtake_nil _).symm
  | append_singleton calls u ih =>
    rcases u.drain_or_records with rfl | ⟨m, hm⟩
    · rw [after_concat, sinceDrain_drain]
      exact (List.rtake_nil _).symm
    · have hsound := (sound_new capacity).after calls
      calc ((new capacity).after (calls ++ [u])).messages
          = (((new capacity).after calls).push m).messages := by
            rw [after_concat, step_of_message _ hm]
        _ = (((new capacity).after calls).messages ++ [m]).rtake (max capacity 1) := by
            rw [hsound.push_messages, after_capacity]
            rfl
        _ = (recorded (sinceDrain calls) ++ [m]).rtake (max capacity 1) := by
            rw [ih, rtake_append_rtake]
        _ = (recorded (sinceDrain (calls ++ [u]))).rtake (max capacity 1) := by
            rw [sinceDrain_append calls (Use.not_mem_singleton hm), recorded_append,
              recorded_cons hm]
            rfl

theorem drain_after (capacity : Nat) (calls : List Use) :
    ((new capacity).after calls).drain =
      ((recorded (sinceDrain calls)).rtake (max capacity 1), new capacity) := by
  rw [drain, messages_after, after_capacity]
  rfl

theorem answers_eq (p : Panel) (calls : List Use) :
    p.answers calls = (beforeDrains calls).map fun before => (p.after before).messages := by
  induction calls generalizing p with
  | nil => rfl
  | cons u rest ih =>
    rw [answers, beforeDrains, List.map_append, ih, List.map_map]
    congr 1
    cases u <;> rfl

def numbered (calls : List Use) : List (String × Nat) := (recorded calls).zipIdx

/-- The messages that no drain has come to yet. -/
def undrained (calls : List Use) : List (String × Nat) :=
  (recorded (sinceDrain calls)).zipIdx (recorded (untilDrain calls)).length

/-- Those of them that there is room for. -/
def waiting (room : Nat) (calls : List Use) : List (String × Nat) := (undrained calls).rtake room

/-- For each drain the messages that it finds waiting. -/
def handedOut (room : Nat) (calls : List Use) : List (List (String × Nat)) :=
  (beforeDrains calls).map (waiting room)

variable {room : Nat}

theorem map_fst_waiting (room : Nat) (calls : List Use) :
    (waiting room calls).map Prod.fst = (recorded (sinceDrain calls)).rtake room := by
  rw [waiting, map_rtake, undrained, List.zipIdx_map_fst]

theorem answers_new (capacity : Nat) (calls : List Use) :
    (new capacity).answers calls =
      (handedOut (max capacity 1) calls).map (List.map Prod.fst) := by
  rw [answers_eq, handedOut, List.map_map]
  apply List.map_congr_left
  intro before _
  rw [messages_after, Function.comp_apply, map_fst_waiting]

theorem numbered_nodup (calls : List Use) : (numbered calls).Nodup := by
  apply List.Nodup.of_map Prod.snd
  rw [numbered, List.zipIdx_map_snd]
  exact List.nodup_range'

theorem undrained_append (first : List Use) {second : List Use} (h : .drain ∉ second) :
    undrained (first ++ second) =
      undrained first ++ (recorded second).zipIdx (recorded first).length := by
  have hfirst := congrArg (fun l => (recorded l).length) (until_append_since first)
  simp only [recorded_append, List.length_append] at hfirst
  rw [undrained, sinceDrain_append first h, untilDrain_append first h, recorded_append,
    List.zipIdx_append, hfirst, undrained]

theorem handedOut_append (room : Nat) (first second : List Use) :
    handedOut room (first ++ second) = handedOut room first ++
      (beforeDrains second).map fun before => waiting room (first ++ before) := by
  rw [handedOut, beforeDrains_append, List.map_append, List.map_map]
  rfl

theorem handedOut_append_of_not_mem (first : List Use) {second : List Use} (h : .drain ∉ second) :
    handedOut room (first ++ second) = handedOut room first := by
  rw [handedOut_append, beforeDrains_eq_nil h]
  exact List.append_nil _

/-- A drain hands out what waits then, between what the drains before it and behind it hand out. -/
theorem handedOut_cut (room : Nat) (first rest : List Use) :
    handedOut room (first ++ .drain :: rest) = handedOut room first ++ waiting room first ::
      (beforeDrains rest).map fun before => waiting room (first ++ .drain :: before) := by
  rw [handedOut_append, beforeDrains, if_pos rfl, List.singleton_append, List.map_cons,
    List.append_nil, List.map_map]
  rfl

theorem handed_and_waiting_drain (room : Nat) (calls : List Use) :
    (handedOut room (calls ++ [.drain])).flatten ++ waiting room (calls ++ [.drain]) =
      (handedOut room calls).flatten ++ waiting room calls := by
  have hnone : waiting room (calls ++ [.drain]) = [] := by
    rw [waiting, undrained, sinceDrain_drain]
    exact List.rtake_nil _
  have hout : handedOut room (calls ++ [.drain]) =
      handedOut room calls ++ [waiting room calls] := handedOut_cut room calls []
  rw [hnone, hout, List.append_nil, List.flatten_append, List.flatten_singleton]

theorem handed_and_waiting_message (h : u.message? = some m) (room : Nat) (calls : List Use) :
    ((handedOut room (calls ++ [u])).flatten ++ waiting room (calls ++ [u])).Sublist
      ((handedOut room calls).flatten ++ waiting room calls ++
        [(m, (recorded calls).length)]) := by
  have hu := Use.not_mem_singleton h
  have hwaiting : waiting room (calls ++ [u]) =
      (waiting room calls ++ [(m, (recorded calls).length)]).rtake room := by
    rw [waiting, undrained_append calls hu, recorded_cons h, waiting, rtake_append_rtake]
    rfl
  rw [handedOut_append_of_not_mem calls hu, hwaiting, List.append_assoc]
  exact (rtake_suffix room _).sublist.append_left _

theorem numbered_append (first second : List Use) :
    numbered (first ++ second) =
      numbered first ++ (recorded second).zipIdx (recorded first).length := by
  rw [numbered, recorded_append, List.zipIdx_append, Nat.zero_add, numbered]

/-- What was handed out and what still waits has been recorded in this order. -/
theorem handed_and_waiting_sublist (room : Nat) (calls : List Use) :
    ((handedOut room calls).flatten ++ waiting room calls).Sublist (numbered calls) := by
  induction calls using List.reverseRecOn with
  | nil =>
    have hnone : waiting room [] = [] := List.rtake_nil _
    rw [hnone]
    exact List.nil_sublist _
  | append_singleton calls u ih =>
    rw [numbered_append]
    rcases u.drain_or_records with rfl | ⟨m, hm⟩
    · rw [handed_and_waiting_drain]
      exact ih.trans (List.sublist_append_left ..)
    · rw [recorded_cons hm]
      exact (handed_and_waiting_message hm room calls).trans (ih.append_right _)

theorem untilDrain_prefix (first second : List Use) :
    untilDrain first <+: untilDrain (first ++ second) := by
  induction second using List.reverseRecOn with
  | nil => simp
  | append_singleton second u ih =>
    rw [← List.append_assoc]
    by_cases hu : u = .drain
    · subst hu
      rw [untilDrain_drain]
      exact ih.trans ((List.rdropWhile_prefix _ _).trans (List.prefix_append ..))
    · rw [untilDrain_append _ (by simpa using Ne.symm hu)]
      exact ih

theorem le_of_mem_waiting {x : String × Nat} {first rest : List Use}
    (h : x ∈ waiting room (first ++ .drain :: rest)) : (recorded first).length ≤ x.2 := by
  have hx : x ∈ undrained (first ++ .drain :: rest) := (rtake_suffix room _).mem h
  have hfront : first ++ [.drain] <+: untilDrain (first ++ .drain :: rest) := by
    have := untilDrain_prefix (first ++ [.drain]) rest
    rwa [untilDrain_drain, List.append_assoc] at this
  calc (recorded first).length ≤ (recorded (first ++ [Use.drain])).length := by
        rw [recorded_append, List.length_append]
        exact Nat.le_add_right ..
    _ ≤ (recorded (untilDrain (first ++ .drain :: rest))).length :=
        (hfront.filterMap Use.message?).length_le
    _ ≤ x.2 := List.le_snd_of_mem_zipIdx hx

theorem mem_waiting_iff (hu : u.message? = some m) {between : List Use} (h : .drain ∉ between)
    (before : List Use) :
    (m, (recorded before).length) ∈ waiting room (before ++ u :: between) ↔
      (recorded between).length < room := by
  have hnone : .drain ∉ u :: between :=
    List.not_mem_cons_of_ne_of_not_mem (Use.ne_drain hu).symm h
  have hbehind : (m, (recorded before).length) ∉
      (recorded between).zipIdx ((recorded before).length + 1) := by
    intro hmem
    exact Nat.not_succ_le_self _ (List.le_snd_of_mem_zipIdx hmem)
  rw [waiting, undrained_append before hnone, recorded_cons hu, List.zipIdx_cons,
    mem_rtake_middle hbehind, List.length_zipIdx]

/-- The next drain hands a message out, unless those recorded in between have filled the panel;
and if it does not, no drain does. -/
theorem handed_iff_room (hu : u.message? = some m) {between : List Use} (h : .drain ∉ between)
    (before rest : List Use) :
    (m, (recorded before).length) ∈
        (handedOut room (before ++ u :: (between ++ .drain :: rest))).flatten ↔
      (recorded between).length < room := by
  have hnone : .drain ∉ u :: between :=
    List.not_mem_cons_of_ne_of_not_mem (Use.ne_drain hu).symm h
  have hearlier : (m, (recorded before).length) ∉ (handedOut room before).flatten := by
    intro hmem
    have hnumbered : (m, (recorded before).length) ∈ numbered before :=
      (handed_and_waiting_sublist room before).mem (List.mem_append_left _ hmem)
    exact Nat.lt_irrefl _ (List.snd_lt_of_mem_zipIdx hnumbered)
  have hlater : ∀ calls ∈ beforeDrains rest,
      (m, (recorded before).length) ∉ waiting room (before ++ u :: between ++ .drain :: calls) := by
    intro calls _ hmem
    have hle := le_of_mem_waiting hmem
    rw [recorded_append, recorded_cons hu, List.length_append, List.length_cons] at hle
    omega
  have hcalls : before ++ u :: (between ++ .drain :: rest) =
      before ++ u :: between ++ .drain :: rest := by
    rw [List.append_assoc, List.cons_append]
  rw [hcalls, handedOut_cut, handedOut_append_of_not_mem before hnone, List.flatten_append,
    List.mem_append, or_iff_right hearlier, List.flatten_cons, List.mem_append,
    mem_waiting_iff hu h]
  apply or_iff_left
  intro hmem
  obtain ⟨_, hin, hmem⟩ := List.mem_flatten.mp hmem
  obtain ⟨calls, hcalls, rfl⟩ := List.mem_map.mp hin
  exact hlater calls hcalls hmem

/-- Whatever the calls, the panel holds the last of the messages recorded since the last drain, as
many as it has room for, and a drain hands out just these and leaves an empty panel. No message is
handed out twice, none overtakes another one, and one is missing only if as many newer ones as there
is room for came before the next drain. -/
theorem messages_handed_out_once (capacity : Nat) (calls : List Use) :
    ((new capacity).after calls).messages =
      (recorded (sinceDrain calls)).rtake (max capacity 1) ∧
    ((new capacity).after calls).drain =
      ((recorded (sinceDrain calls)).rtake (max capacity 1), new capacity) ∧
    (new capacity).answers calls = (handedOut (max capacity 1) calls).map (List.map Prod.fst) ∧
    (handedOut (max capacity 1) calls).flatten.Nodup ∧
    (handedOut (max capacity 1) calls).flatten.Sublist (numbered calls) ∧
    ∀ before u m between rest, calls = before ++ u :: (between ++ .drain :: rest) →
      u.message? = some m → .drain ∉ between →
        ((m, (recorded before).length) ∈ (handedOut (max capacity 1) calls).flatten ↔
          (recorded between).length < max capacity 1) := by
  have hsublist : (handedOut (max capacity 1) calls).flatten.Sublist (numbered calls) :=
    (List.sublist_append_left ..).trans (handed_and_waiting_sublist (max capacity 1) calls)
  refine ⟨messages_after capacity calls, drain_after capacity calls, answers_new capacity calls,
    (numbered_nodup calls).sublist hsublist, hsublist, ?_⟩
  rintro before u m between rest rfl hu hbetween
  exact handed_iff_room hu hbetween before rest

/-- Three messages of one text: the first has to go, and each of the others is handed out once. -/
theorem same_text_told_apart :
    let calls : List Use := [.push "a", .log (.validation .emptyName), .push "a", .drain, .drain,
      .push "a", .drain]
    (new 2).answers calls = [["name must not be empty", "a"], [], ["a"]] ∧
    ("a", 0) ∉ (handedOut 2 calls).flatten ∧ ("a", 2) ∈ (handedOut 2 calls).flatten ∧
    ("a", 3) ∈ (handedOut 2 calls).flatten := by
  intro calls
  obtain ⟨-, -, -, -, -, hmissing⟩ := messages_handed_out_once 2 calls
  refine ⟨by decide, ?_, ?_, ?_⟩
  · intro h
    have := (hmissing [] (.push "a") "a" [.log (.validation .emptyName), .push "a"]
      [.drain, .push "a", .drain] rfl rfl (by decide)).mp h
    exact absurd this (by decide)
  · exact (hmissing [.push "a", .log (.validation .emptyName)] (.push "a") "a" []
      [.drain, .push "a", .drain] rfl rfl (by decide)).mpr (by decide)
  · exact (hmissing [.push "a", .log (.validation .emptyName), .push "a", .drain, .drain]
      (.push "a") "a" [] [] rfl rfl (by decide)).mpr (by decide)

end HeatingControl.Panel
