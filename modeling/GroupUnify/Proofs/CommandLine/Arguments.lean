import GroupUnify.CommandLine.Options
import Mathlib.Data.List.TakeWhile

/-!
# Values on the command line

An option written out in full with `=` has the text after the first `=` as its value, whatever characters
there are (`Word.ofArgument_assigned`). Two dashes are the one exception: after `=` they stand for no value,
and as an argument of their own they end the options. So two dashes are never the name of a file to save to
(`Request.save_ne_dashes`); every other name is, and it is the one that `--load=` takes
(`Request.parse_load`).
-/

namespace GroupUnify.CommandLine

variable {s : Switch} {name value argument : String} {arguments : List String} {o o' : Options}
  {words : List Word} {extras extras' : List String} {v : Option String}

/-! ### Single arguments -/

namespace Word

/-- Every spelling is a dash and more, and has no `=` in it. -/
theorem spellings : Switch.table.all (fun entry => entry.1.toList.head? == some '-' &&
    decide (1 < entry.1.toList.length) && entry.1.toList.all (· != '=')) = true := by
  decide

theorem spelling_of_lookup (h : Switch.table.lookup name = some s) :
    (∃ c cs, name.toList = '-' :: c :: cs) ∧ ∀ c ∈ name.toList, (c != '=') = true := by
  obtain ⟨front, back, htable, -⟩ := List.lookup_eq_some_iff.1 h
  have hmem : (name, s) ∈ Switch.table := by
    rw [htable]
    exact List.mem_append_right _ List.mem_cons_self
  have hspelling := List.all_eq_true.1 spellings _ hmem
  simp only [Bool.and_eq_true, beq_iff_eq, decide_eq_true_eq, List.all_eq_true] at hspelling
  obtain ⟨⟨hhead, hlength⟩, hequals⟩ := hspelling
  refine ⟨?_, hequals⟩
  match hname : name.toList with
  | [] =>
    rw [hname] at hhead
    cases hhead
  | [c] =>
    rw [hname] at hlength
    exact absurd hlength (lt_irrefl 1)
  | c :: d :: cs =>
    rw [hname, List.head?_cons, Option.some.injEq] at hhead
    exact ⟨d, cs, by rw [hhead]⟩

theorem toList_assigned (name value : String) :
    (name ++ "=" ++ value).toList = name.toList ++ '=' :: value.toList := by
  rw [String.toList_append, String.toList_append, List.append_assoc]
  rfl

theorem ofDashed_assigned (h : Switch.table.lookup name = some s) (hname : name ≠ "-h")
    (value : String) : ofDashed (name ++ "=" ++ value) = .ok (.option s (some value)) := by
  obtain ⟨-, hequals⟩ := spelling_of_lookup h
  have hfront : (name.toList ++ '=' :: value.toList).takeWhile (· != '=') = name.toList := by
    rw [List.takeWhile_append_of_pos hequals, List.takeWhile_cons_of_neg (by simp), List.append_nil]
  have hvalue : valueOf (name.toList ++ '=' :: value.toList) = some value := by
    rw [valueOf, List.dropWhile_append_of_pos hequals, List.dropWhile_cons_of_neg (by simp)]
    exact congrArg some String.ofList_toList
  have hletter : name.toList ≠ ['-', 'h'] := fun hlist => hname (String.toList_inj.1 hlist)
  rw [ofDashed, toList_assigned]
  simp only [hfront, hvalue, String.ofList_toList, h, hletter, false_and, if_false]

/-- **An option with `=` has the rest as its value.** -/
theorem ofArgument_assigned (h : Switch.table.lookup name = some s) (hname : name ≠ "-h")
    (value : String) : ofArgument (name ++ "=" ++ value) = .ok (.option s (some value)) := by
  obtain ⟨⟨c, cs, hcons⟩, -⟩ := spelling_of_lookup h
  have hlookup : Switch.table.lookup (name ++ "=" ++ value) = none := by
    cases hfound : Switch.table.lookup (name ++ "=" ++ value) with
    | none => rfl
    | some s' =>
      -- the argument has a `=` in it, and a spelling has none
      have hequals := (spelling_of_lookup hfound).2 '='
      rw [toList_assigned] at hequals
      exact absurd (hequals (List.mem_append_right _ List.mem_cons_self)) (by simp)
  rw [ofArgument, hlookup]
  simp only [toList_assigned, hcons, List.cons_append]
  exact ofDashed_assigned h hname value

theorem eq_of_ofDashed_plain (h : ofDashed argument = .ok (.plain value)) : value = argument := by
  simp only [ofDashed] at h
  split at h
  · split at h <;> cases h
  · split at h
    · cases h
    · split at h
      · cases h
      · cases h
      · split at h
        · cases h
          rfl
        · cases h

/-- An argument that is no option is taken as it stands. -/
theorem eq_of_ofArgument_plain (h : ofArgument argument = .ok (.plain value)) : value = argument := by
  rw [ofArgument] at h
  split at h
  · cases h
  · split at h
    · exact eq_of_ofDashed_plain h
    · cases h
      rfl

end Word

/-! ### All arguments -/

/-- A computation that succeeds goes on from a first result. -/
theorem exists_of_bind {ε α β : Type} {x : Except ε α} {f : α → Except ε β} {b : β}
    (h : x >>= f = .ok b) : ∃ a, x = .ok a ∧ f a = .ok b := by
  cases x with
  | error cause => cases h
  | ok a => exact ⟨a, rfl, h⟩

namespace Options

theorem save_withSource {source : Source} (h : o.withSource source = .ok o') : o'.save = o.save := by
  rw [withSource] at h
  split at h
  · cases h
    rfl
  · split at h
    · cases h
      rfl
    · cases h

theorem save_withValue (h : o.withValue s v = .ok o') : o'.save = o.save ∨ o'.save = v := by
  cases s with
  | file => exact Or.inl (save_withSource h)
  | load => exact Or.inl (save_withSource h)
  | problems =>
    simp only [withValue] at h
    split at h
    · exact Or.inl (save_withSource h)
    · split at h
      · exact Or.inl (save_withSource h)
      · cases h
  | save =>
    cases h
    exact Or.inr rfl
  | _ =>
    cases h
    exact Or.inl rfl

/-- A value that is not two dashes leaves no two dashes to save to. -/
theorem save_ne_of_withValue (ho : o.save ≠ some "--") (hv : v ≠ some "--")
    (h : o.withValue s v = .ok o') : o'.save ≠ some "--" := by
  rcases save_withValue h with hsave | hsave
  · rw [hsave]
    exact ho
  · rw [hsave]
    exact hv

theorem save_withSwitch (o : Options) (s : Switch) : (o.withSwitch s).save = o.save := by
  cases s <;> rfl

end Options

namespace Request

/-- **Two dashes are never the name to save to**: after `=` they count as no value, and the words are those of
other arguments. -/
theorem save_ofWords (hwords : .plain "--" ∉ words) (ho : o.save ≠ some "--")
    (h : ofWords o extras words = .ok (some (o', extras'))) : o'.save ≠ some "--" := by
  -- the cases are those of the recursion; only two of them give a value to an option
  induction o, extras, words using ofWords.induct with
  | case1 o extras =>
    cases h
    exact ho
  | case2 o extras text rest ih | case3 o extras text rest ih =>
    rw [ofWords] at h
    exact ih (fun hmem => hwords (List.mem_cons_of_mem _ hmem)) ho h
  | case4 o extras cs rest =>
    rw [ofWords] at h
    obtain ⟨-, -, hnone⟩ := exists_of_bind h
    cases hnone
  | case5 o extras s v rest hvalue ih =>
    rw [ofWords, if_pos hvalue] at h
    obtain ⟨next, hnext, hrest⟩ := exists_of_bind h
    have hv : (if v = "--" then none else some v) ≠ some "--" := by
      split
      · exact Option.some_ne_none _ |>.symm
      · next hv => exact fun heq => hv (Option.some.inj heq)
    exact ih next (fun hmem => hwords (List.mem_cons_of_mem _ hmem))
      (Options.save_ne_of_withValue ho hv hnext) hrest
  | case6 o extras s v rest hvalue =>
    rw [ofWords, if_neg hvalue] at h
    cases h
  | case7 o extras s hvalue v rest ih =>
    rw [ofWords, if_pos hvalue] at h
    obtain ⟨next, hnext, hrest⟩ := exists_of_bind h
    have hv : some v ≠ some "--" := by
      rintro ⟨⟩
      exact hwords (List.mem_cons_of_mem _ List.mem_cons_self)
    exact ih next (fun hmem => hwords (List.mem_cons_of_mem _ (List.mem_cons_of_mem _ hmem)))
      (Options.save_ne_of_withValue ho hv hnext) hrest
  | case8 o extras s rest hvalue hrest =>
    rw [ofWords, if_pos hvalue] at h
    · cases h
    · exact hrest
  | case9 o extras rest hvalue =>
    rw [ofWords.eq_def] at h
    simp only [hvalue] at h
    cases h
  | case10 o extras s rest hvalue hhelp ih =>
    rw [ofWords.eq_def] at h
    simp only [hvalue, hhelp] at h
    refine ih (fun hmem => hwords (List.mem_cons_of_mem _ hmem)) ?_ h
    rw [Options.save_withSwitch]
    exact ho

theorem exists_of_mem_words : ∀ {arguments : List String} {words : List Word},
    arguments.mapM Word.ofArgument = .ok words → ∀ w ∈ words,
      ∃ argument ∈ arguments, Word.ofArgument argument = .ok w := by
  intro arguments
  induction arguments with
  | nil =>
    intro words h w hw
    cases h
    exact absurd hw List.not_mem_nil
  | cons argument arguments ih =>
    intro words h w hw
    rw [List.mapM_cons] at h
    obtain ⟨first, hfirst, h⟩ := exists_of_bind h
    obtain ⟨rest, hrest, h⟩ := exists_of_bind h
    cases h
    rcases List.mem_cons.1 hw with rfl | hw
    · exact ⟨argument, List.mem_cons_self, hfirst⟩
    · obtain ⟨argument', hmem, hword⟩ := ih hrest w hw
      exact ⟨argument', List.mem_cons_of_mem _ hmem, hword⟩

/-- **No session saves to a file named by two dashes.** -/
theorem save_ne_dashes (h : parse arguments = .ok (.run o)) : o.save ≠ some "--" := by
  rw [parse] at h
  obtain ⟨words, hwords, h⟩ := exists_of_bind h
  obtain ⟨outcome, houtcome, h⟩ := exists_of_bind h
  cases outcome with
  | none => cases h
  | some read =>
    obtain ⟨o', extras⟩ := read
    simp only at h
    split at h
    · cases h
      refine save_ofWords (fun hmem => ?_) (by rintro ⟨⟩) houtcome
      obtain ⟨argument, hargument, hplain⟩ := exists_of_mem_words hwords _ hmem
      have hne := List.mem_takeWhile_imp hargument
      rw [Word.eq_of_ofArgument_plain hplain] at hne
      simp at hne
    · cases h

/-- **The one argument that loads the reports saved at a path**, whatever the path is. -/
theorem parse_load (hvalue : value ≠ "--") :
    parse ["--load=" ++ value] = .ok (.run { source := some (.load (some value)) }) := by
  have hlookup : Switch.table.lookup "--load" = some .load := by decide
  have hword : Word.ofArgument ("--load=" ++ value) = .ok (.option .load (some value)) :=
    Word.ofArgument_assigned hlookup (by decide) value
  have hoption : "--load=" ++ value ≠ "--" := by
    intro h
    have hlength := congrArg String.length h
    rw [String.length_append] at hlength
    have hfront : "--load=".length = 7 := by decide
    have hdashes : "--".length = 2 := by decide
    omega
  have htake : ["--load=" ++ value].takeWhile (· ≠ "--") = ["--load=" ++ value] := by
    simp [hoption]
  have hdrop : ["--load=" ++ value].dropWhile (· ≠ "--") = [] := by
    simp [hoption]
  have hwords : ["--load=" ++ value].mapM Word.ofArgument = .ok [.option .load (some value)] := by
    rw [List.mapM_cons, hword]
    rfl
  have hread : ofWords {} [] [.option .load (some value)] =
      .ok (some ({ source := some (.load (some value)) }, [])) := by
    have htakes : Switch.load.takesValue = true := rfl
    rw [ofWords, if_pos htakes, if_neg hvalue]
    rfl
  rw [parse, htake, hdrop, hwords]
  simp only [bind, Except.bind, hread]
  rfl

end Request

end GroupUnify.CommandLine
