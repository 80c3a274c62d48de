import BlockLang.Proofs.Machine.History
import Mathlib

/-!
# Too little room for the output

A buffer that takes a limited number of bytes cuts the output off and does nothing else.  Two runs
of the same program are compared, one with a buffer that takes everything and one with a buffer
that takes at most `limit` bytes (`Machine.unlimited`, `Machine.limited`).

As long as what has been written fits, the two are at one; from the write on that does not fit, the
limited run only leaves the frames that it is in.  `Recorded.Follows` says this of one activity, and
`Recorded.Truncates` of an activity wherever it begins.  It passes through the ways in which
activities are put together because what has been written stays written (`Truncates.grows`): a run
that has once written too much will have written too much at its end.

The main result is `Program.run_bounded`.
-/

namespace BlockLang

/-! ## Buffers -/

namespace Buffer

/-- The reason that a buffer gives when it does not take all bytes. -/
def refusal : String :=
  "failed to write whole buffer"

/-- The first bytes of what fits are all of it. -/
lemma extract_of_size_le {bytes : ByteArray} {limit : Nat} (room : bytes.size ≤ limit) :
    bytes.extract 0 limit = bytes := by
  ext1
  simp only [ByteArray.data_extract, Array.extract_eq_self_iff]
  exact .inr ⟨trivial, room⟩

/-- What is written behind the first bytes does not change them. -/
lemma extract_append_of_le_size {written : ByteArray} {limit : Nat} (full : limit ≤ written.size)
    (more : ByteArray) : (written ++ more).extract 0 limit = written.extract 0 limit := by
  rw [ByteArray.extract_append, Nat.sub_eq_zero_of_le full, Nat.zero_sub, ByteArray.extract_same,
    ByteArray.append_empty]

/-- The first bytes of an output that is too long are those that were there and as many of the
new ones as there is room for. -/
lemma extract_append_of_size_le {written : ByteArray} {limit : Nat} (room : written.size ≤ limit)
    (more : ByteArray) :
    (written ++ more).extract 0 limit = written ++ more.extract 0 (limit - written.size) := by
  rw [ByteArray.extract_append, extract_of_size_le room, Nat.zero_sub]

end Buffer

namespace Machine

/-- A machine whose buffer takes everything. -/
def unlimited (env : Environment) (written : ByteArray) : Machine Buffer :=
  ⟨env, ⟨written, none, none⟩⟩

/-- A machine whose buffer takes at most so many bytes. -/
def limited (limit : Nat) (env : Environment) (written : ByteArray) : Machine Buffer :=
  ⟨env, ⟨written, some limit, none⟩⟩

end Machine

namespace Recorded

open Machine Buffer

variable {α β : Type} {limit : Nat} {x : Recorded Buffer α} {f : α → Recorded Buffer β}
  {env : Environment} {written : ByteArray}

/-! ## One activity in two machines -/

/-- How an activity that begins with a limited buffer follows the one that begins with an unlimited
buffer and the same output. -/
inductive Follows (limit : Nat) (x : Recorded Buffer α) (env : Environment)
    (written : ByteArray) : Prop
  /-- All output fits.  The two end in the same way, and the same things happen. -/
  | fits {outcome : Outcome Fault α} {env' : Environment} {written' : ByteArray}
      (free : x.activity.run (unlimited env written) = (outcome, unlimited env' written'))
      (room : written'.size ≤ limit)
      (tight : x.activity.run (limited limit env written) = (outcome, limited limit env' written'))
      (same : x.events (limited limit env written) = x.events (unlimited env written))
  /-- The output is too long.  One write is refused, and nothing but the frames is left. -/
  | cut {outcome : Outcome Fault α} {env' env'' : Environment} {written' : ByteArray}
      {past later : List Event} {text : String} {depth : Nat}
      (free : x.activity.run (unlimited env written) = (outcome, unlimited env' written'))
      (full : limit < written'.size)
      (tight : x.activity.run (limited limit env written) =
        (.failed (.outputFailed refusal), limited limit env'' (written'.extract 0 limit)))
      (happens : x.events (unlimited env written) = past ++ .write text :: later)
      (stops : x.events (limited limit env written) =
        past ++ .write text :: List.replicate depth .leave)

/-- Wherever an activity begins, it adds to the output if there is no limit, and follows that if
there is one and the output in front of it fits. -/
structure Truncates (limit : Nat) (x : Recorded Buffer α) : Prop where
  grows : ∀ env written, ∃ outcome env' more, x.activity.run (unlimited env written) =
    (outcome, unlimited env' (written ++ more))
  follows : ∀ env written, written.size ≤ limit → Follows limit x env written

/-! ## Single steps -/

/-- An activity that has to do with the environment alone. -/
lemma truncates_of_env (g : Environment → Outcome Fault α × Environment)
    (hrun : ∀ m, x.activity.run m = ((g m.env).1, ⟨(g m.env).2, m.out⟩))
    (hevents : ∀ m m', x.events m = x.events m') : Truncates limit x where
  grows env written := by
    refine ⟨(g env).1, (g env).2, .empty, ?_⟩
    rw [hrun, ByteArray.append_empty]
    rfl
  follows env written room := .fits (hrun _) room (hrun _) (hevents _ _)

lemma truncates_quiet_lookup (ident : Ident) : Truncates limit (quiet (Machine.lookup ident)) := by
  -- What a name stands for does not depend on the sink.
  apply truncates_of_env fun env =>
    ((Machine.lookup ident ⟨env, ()⟩).1, (Machine.lookup ident ⟨env, ()⟩).2.env)
  · intro m
    show Machine.lookup ident m = _
    rw [Machine.lookup, Machine.lookup]
    cases Environment.lookup m.env ident.name <;> rfl
  · exact fun _ _ => rfl

lemma truncates_assign (target : Ident) (value : Value) (line : Nat) :
    Truncates limit (assign target value line) := by
  apply truncates_of_env fun env =>
    ((Machine.assign target value line ⟨env, ()⟩).1,
      (Machine.assign target value line ⟨env, ()⟩).2.env)
  · intro m
    show Machine.assign target value line m = _
    rw [Machine.assign, Machine.assign]
    cases Environment.assign m.env target.name value line <;> rfl
  · exact fun _ _ => rfl

/-- A text is written, or it does not fit and as much of it is written as fits. -/
lemma truncates_print (value : Value) : Truncates limit (print value) where
  grows env written := ⟨.done (), env, value.printed.toUTF8, rfl⟩
  follows env written room := by
    have free : (print value : Recorded Buffer Unit).activity.run (unlimited env written) =
        (.done (), unlimited env (written ++ value.printed.toUTF8)) := rfl
    by_cases fits : value.printed.toUTF8.size ≤ limit - written.size
    · have taken : (print value : Recorded Buffer Unit).activity.run (limited limit env written) =
          (.done (), limited limit env (written ++ value.printed.toUTF8)) := by
        show output (Buffer.append · _) _ = _
        simp only [output, limited, Buffer.append, if_pos fits]
      refine .fits free ?_ taken rfl
      rw [ByteArray.size_append]
      omega
    · have refused : (print value : Recorded Buffer Unit).activity.run
          (limited limit env written) = (.failed (.outputFailed refusal),
            limited limit env ((written ++ value.printed.toUTF8).extract 0 limit)) := by
        show output (Buffer.append · _) _ = _
        simp only [output, limited, Buffer.append, if_neg fits, extract_append_of_size_le room]
        rfl
      have happens : (print value : Recorded Buffer Unit).events (unlimited env written) =
          [] ++ .write value.printed :: [] := rfl
      have stops : (print value : Recorded Buffer Unit).events (limited limit env written) =
          [] ++ .write value.printed :: List.replicate 0 .leave := rfl
      refine .cut free ?_ refused happens stops
      rw [ByteArray.size_append]
      omega

lemma truncates_flush : Truncates limit flush where
  grows env written := by
    refine ⟨.done (), env, .empty, ?_⟩
    rw [ByteArray.append_empty]
    rfl
  follows env written room := by
    have free : (flush : Recorded Buffer Unit).activity.run (unlimited env written) =
        (.done (), unlimited env written) := rfl
    exact .fits free room rfl rfl

/-! ## Activities put together -/

/-- What has been written and what has happened behind the first of two activities stays so. -/
lemma grows_behind (behind : ∀ a, Truncates limit (f a)) {outcome : Outcome Fault α}
    {env' : Environment} {written' : ByteArray}
    (hrun : x.activity.run (unlimited env written) = (outcome, unlimited env' written')) :
    ∃ outcome' env'' more events,
      (x >>= f).activity.run (unlimited env written) =
        (outcome', unlimited env'' (written' ++ more)) ∧
      (x >>= f).events (unlimited env written) = x.events (unlimited env written) ++ events := by
  by_cases hdone : ∃ a, outcome = .done a
  · obtain ⟨a, rfl⟩ := hdone
    obtain ⟨hrun₂, hevents⟩ := bind_of_done (f := f) hrun
    obtain ⟨outcome', env'', more, hbehind⟩ := (behind a).grows env' written'
    exact ⟨outcome', env'', more, _, hrun₂.trans hbehind, hevents⟩
  · obtain ⟨hrun₂, hevents⟩ := bind_of_not_done (f := f) hrun hdone
    rw [hevents]
    exact ⟨_, env', .empty, [], by rw [hrun₂, ByteArray.append_empty], (List.append_nil _).symm⟩

lemma Truncates.bind (first : Truncates limit x) (behind : ∀ a, Truncates limit (f a)) :
    Truncates limit (x >>= f) where
  grows env written := by
    obtain ⟨_, _, more, hrun⟩ := first.grows env written
    obtain ⟨outcome, env', more', _, hrun', -⟩ := grows_behind behind hrun
    exact ⟨outcome, env', more ++ more', by rw [← ByteArray.append_assoc, hrun']⟩
  follows env written room := by
    rcases first.follows env written room with
      @⟨outcome, env', written', free, room', tight, same⟩ |
        @⟨_, _, _, _, _, _, _, _, free, full, tight, happens, stops⟩
    · by_cases hdone : ∃ a, outcome = .done a
      · obtain ⟨a, rfl⟩ := hdone
        obtain ⟨hfree, hevents⟩ := bind_of_done (f := f) free
        obtain ⟨htight, hevents'⟩ := bind_of_done (f := f) tight
        rcases (behind a).follows env' written' room' with
          ⟨free₂, room₂, tight₂, same₂⟩ | ⟨free₂, full₂, tight₂, happens₂, stops₂⟩
        · refine .fits (hfree.trans free₂) room₂ (htight.trans tight₂) ?_
          rw [hevents, hevents', same, same₂]
        · rw [happens₂, ← List.append_assoc] at hevents
          rw [stops₂, same, ← List.append_assoc] at hevents'
          exact .cut (hfree.trans free₂) full₂ (htight.trans tight₂) hevents hevents'
      · obtain ⟨hfree, hevents⟩ := bind_of_not_done (f := f) free hdone
        obtain ⟨htight, hevents'⟩ := bind_of_not_done (f := f) tight hdone
        refine .fits hfree room' htight ?_
        rw [hevents, hevents', same]
    · -- The second activity may write more, but only behind the first bytes.
      obtain ⟨outcome, env', more, events, hfree, hevents⟩ := grows_behind behind free
      obtain ⟨htight, hevents'⟩ := bind_of_not_done (f := f) tight (by simp)
      rw [← extract_append_of_le_size (Nat.le_of_lt full) more] at htight
      rw [happens, List.append_assoc, List.cons_append] at hevents
      refine .cut hfree ?_ htight hevents (hevents'.trans stops)
      rw [ByteArray.size_append]
      omega

lemma Truncates.inFrame (inside : Truncates limit x) : Truncates limit (inFrame x) where
  grows env written := by
    obtain ⟨outcome, _, more, hrun⟩ := inside.grows env.enter written
    exact ⟨outcome, _, more, (inFrame_of_run (m := unlimited env written) hrun).1⟩
  follows env written room := by
    rcases inside.follows env.enter written room with
      ⟨free, room', tight, same⟩ |
        @⟨outcome, _, _, _, past, later, text, depth, free, full, tight, happens, stops⟩
    · obtain ⟨hfree, hevents⟩ := inFrame_of_run (m := unlimited env written) free
      obtain ⟨htight, hevents'⟩ := inFrame_of_run (m := limited limit env written) tight
      refine .fits hfree room' htight ?_
      rw [hevents, hevents']
      exact congrArg (fun events => .enter :: (events ++ _)) same
    · obtain ⟨hfree, hevents⟩ := inFrame_of_run (m := unlimited env written) free
      obtain ⟨htight, hevents'⟩ := inFrame_of_run (m := limited limit env written) tight
      have happens' : (Recorded.inFrame x).events (unlimited env written) = (.enter :: past) ++
          .write text :: (later ++ if outcome.isFinished then [.leave] else []) := by
        rw [List.cons_append]
        refine hevents.trans (congrArg (Event.enter :: ·) ?_)
        show x.events (unlimited env.enter written) ++ _ = _
        rw [happens, List.append_assoc, List.cons_append]
      have stops' : (Recorded.inFrame x).events (limited limit env written) = (.enter :: past) ++
          .write text :: List.replicate (depth + 1) .leave := by
        rw [List.cons_append]
        refine hevents'.trans (congrArg (Event.enter :: ·) ?_)
        show x.events (limited limit env.enter written) ++ [.leave] = _
        rw [stops, List.append_assoc, List.cons_append, List.replicate_succ']
      exact .cut hfree full htight happens' stops'

/-! ## Programs -/

lemma compositional_truncates (limit : Nat) :
    Compositional fun _ (x : Recorded Buffer _) => Truncates limit x where
  pure a := truncates_of_env (fun env => (.done a, env)) (fun _ => rfl) fun _ _ => rfl
  fail fault := truncates_of_env (fun env => (.failed fault, env)) (fun _ => rfl) fun _ _ => rfl
  stop := truncates_of_env (fun env => (.unfinished, env)) (fun _ => rfl) fun _ _ => rfl
  bind := .bind
  inFrame := .inFrame
  begins _ := truncates_of_env (fun env => (.done (), env)) (fun _ => rfl) fun _ _ => rfl
  lookup := truncates_quiet_lookup
  define name kind value := truncates_of_env
    (fun env => (.done (), Environment.define env name.name kind value)) (fun _ => rfl)
    fun _ _ => rfl
  assign := truncates_assign
  print := truncates_print

end Recorded

namespace Program

open Buffer Recorded

/-- A buffer with a limited capacity cuts the output of a program off and does nothing else.  If
all output fits, the run is the same.  If it does not, whether or not the program would come to an
end, the run fails with the refusal of the output and has written the first bytes that the program
would write: up to a write all things happen in the same way, and behind that write nothing happens
any more but that frames are left. -/
theorem run_bounded (program : Program) (bound limit : Nat) :
    ((program.run bound Buffer.unbounded).2.written.size ≤ limit →
      (program.run bound (Buffer.bounded limit)).1 = (program.run bound Buffer.unbounded).1 ∧
      (program.run bound (Buffer.bounded limit)).2.written =
        (program.run bound Buffer.unbounded).2.written ∧
      program.history bound (Buffer.bounded limit) = program.history bound Buffer.unbounded) ∧
    (limit < (program.run bound Buffer.unbounded).2.written.size →
      (program.run bound (Buffer.bounded limit)).1 = .failed (.outputFailed refusal) ∧
      (program.run bound (Buffer.bounded limit)).2.written =
        (program.run bound Buffer.unbounded).2.written.extract 0 limit ∧
      ∃ past text later depth,
        program.history bound Buffer.unbounded = past ++ .write text :: later ∧
        program.history bound (Buffer.bounded limit) =
          past ++ .write text :: List.replicate depth .leave) := by
  have hruns : Truncates limit (Recorded.run bound program) :=
    (compositional_truncates limit).run truncates_flush bound program
  have hfree : (Recorded.run bound program).activity.run (Machine.unlimited .root .empty) =
      (Machine.run bound program).run ⟨.root, Buffer.unbounded⟩ :=
    activity_run bound program Buffer.unbounded
  have htight : (Recorded.run bound program).activity.run (Machine.limited limit .root .empty) =
      (Machine.run bound program).run ⟨.root, Buffer.bounded limit⟩ :=
    activity_run bound program (Buffer.bounded limit)
  rw [Program.run, Program.run, ← hfree, ← htight]
  rcases hruns.follows .root .empty (Nat.zero_le limit) with
    ⟨free, room, tight, same⟩ | ⟨free, full, tight, happens, stops⟩
  · rw [free, tight]
    exact ⟨fun _ => ⟨rfl, rfl, same⟩, fun hfull => absurd room (Nat.not_le_of_lt hfull)⟩
  · rw [free, tight]
    exact ⟨fun hroom => absurd full (Nat.not_lt_of_le hroom),
      fun _ => ⟨rfl, rfl, _, _, _, _, happens, stops⟩⟩

/-- Of the two bytes of a character one fits and is written, and four bytes are room enough for the
character and the line behind it. -/
theorem run_bounded_inside_char :
    ∃ program : Program, program.body = [.print (.literal (.char 'é' 1)) 1,
        .print (.literal (.int 2 1)) 1] ∧
      1 < (program.run 0 Buffer.unbounded).2.written.size ∧
      (program.run 0 (Buffer.bounded 1)).1 = .failed (.outputFailed refusal) ∧
      (program.run 0 (Buffer.bounded 1)).2.written = ⟨#[0xc3]⟩ ∧
      (program.run 0 (Buffer.bounded 4)).1 = (program.run 0 Buffer.unbounded).1 := by
  refine ⟨_, rfl, ?_⟩
  have hsize : (Program.run 0 ⟨[.print (.literal (.char 'é' 1)) 1,
      .print (.literal (.int 2 1)) 1]⟩ Buffer.unbounded).2.written.size = 4 := by cbv
  have hfull := Nat.lt_of_lt_of_eq (by decide : 1 < 4) hsize.symm
  obtain ⟨hrefused, hwritten, -⟩ := (run_bounded _ 0 1).2 hfull
  obtain ⟨hsame, -⟩ := (run_bounded _ 0 4).1 (Nat.le_of_eq hsize)
  refine ⟨hfull, hrefused, hwritten.trans ?_, hsame⟩
  cbv

end Program

end BlockLang
