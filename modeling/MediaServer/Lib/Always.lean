import MediaServer.Lib.Machine

/-!
# Properties of every moment of a run

A property of histories and states holds always in a run when it holds after every part of it.
Where one step decides it, it holds always exactly in the runs that meet the condition of that
step.
-/

namespace Machine

variable {State Input Output : Type} (M : Machine State Input Output)

/-- The property holds at the end of the run and at every moment before. -/
def Always (P : History Input Output → State → Prop) (acts : List (Action Input)) : Prop :=
  ∀ before after, acts = before ++ after → ∀ c, M.run before = .ok c → P c.history c.state

variable {M}

theorem Always.left {P : History Input Output → State → Prop} {acts : List (Action Input)}
    {a : Action Input} (h : M.Always P (acts ++ [a])) : M.Always P acts := by
  intro before after hacts c hc
  refine h before (after ++ [a]) ?_ c hc
  rw [hacts, List.append_assoc]

theorem Always.last {P : History Input Output → State → Prop} {acts : List (Action Input)}
    (h : M.Always P acts) {c : Config State Input Output} (hc : M.run acts = .ok c) :
    P c.history c.state :=
  h acts [] (List.append_nil _).symm c hc

/-- A part of a longer run is the whole run or a part of the shorter one. -/
theorem prefix_concat_cases {α : Type} {xs before after : List α} {x : α}
    (h : xs ++ [x] = before ++ after) :
    (before = xs ++ [x] ∧ after = []) ∨ ∃ rest, after = rest ++ [x] ∧ xs = before ++ rest := by
  rcases List.eq_nil_or_concat after with rfl | ⟨rest, y, rfl⟩
  · exact Or.inl ⟨by rw [h, List.append_nil], rfl⟩
  · rw [List.concat_eq_append] at h ⊢
    rw [← List.append_assoc] at h
    obtain ⟨hxs, hx⟩ := List.append_inj' h rfl
    cases hx
    exact Or.inr ⟨rest, rfl, hxs⟩

theorem Always.concat {P : History Input Output → State → Prop} {acts : List (Action Input)}
    {a : Action Input} (h : M.Always P acts)
    (hlast : ∀ c, M.run (acts ++ [a]) = .ok c → P c.history c.state) :
    M.Always P (acts ++ [a]) := by
  intro before after hacts c hc
  rcases prefix_concat_cases hacts with ⟨rfl, -⟩ | ⟨rest, -, hrest⟩
  · exact hlast c hc
  · exact h before rest hrest c hc

theorem Admits.concat_input {ok : Contract State Input Output} {acts : List (Action Input)}
    {i : Input} {c : Config State Input Output} (h : M.Admits ok acts)
    (hc : M.run acts = .ok c) (hok : ok c.history c.state i) :
    M.Admits ok (acts ++ [Action.input i]) := by
  intro before j after hacts c' hc'
  rcases prefix_concat_cases hacts with ⟨-, hnil⟩ | ⟨rest, hrest, hbefore⟩
  · cases hnil
  · cases rest with
    | nil =>
      cases hrest
      rw [List.append_nil] at hbefore
      subst hbefore
      rw [hc] at hc'
      cases hc'
      exact hok
    | cons b rest =>
      cases hrest
      exact h before j rest hbefore c' hc'

theorem Admits.concat_pop {ok : Contract State Input Output} {acts : List (Action Input)}
    (h : M.Admits ok acts) : M.Admits ok (acts ++ [Action.pop]) := by
  intro before j after hacts c' hc'
  rcases prefix_concat_cases hacts with ⟨-, hnil⟩ | ⟨rest, hrest, hbefore⟩
  · cases hnil
  · cases rest with
    | nil => cases hrest
    | cons b rest =>
      cases hrest
      exact h before j rest hbefore c' hc'

/-- **The runs in which a property holds always.**  From states with the invariant, a step that is
    in turn brings the property about exactly when it meets the condition, and then it keeps the
    invariant. -/
theorem always_iff_admits {turn ok : Contract State Input Output}
    {Inv P : History Input Output → State → Prop} (hinit : Inv [] M.init)
    (hholds : ∀ history s, Inv history s → P history s)
    (hstep : ∀ history s i s', Inv history s → turn history s i → M.step s i = .ok s' →
      (P (history ++ [(i, M.pushed s s')]) s' → ok history s i) ∧
      (ok history s i → Inv (history ++ [(i, M.pushed s s')]) s'))
    (hpop : ∀ history s, Inv history s → Inv history (M.dropFront s))
    {acts : List (Action Input)} {c : Config State Input Output} (hturn : M.Admits turn acts)
    (hrun : M.run acts = .ok c) : M.Always P acts ↔ M.Admits ok acts := by
  suffices hboth : (M.Always P acts ↔ M.Admits ok acts) ∧
      (M.Admits ok acts → Inv c.history c.state) from hboth.1
  induction acts using List.reverseRecOn generalizing c with
  | nil =>
    cases hrun
    refine ⟨⟨fun _ => ?_, fun _ => ?_⟩, fun _ => hinit⟩
    · intro before i after hacts
      simp at hacts
    · intro before after hacts c hc
      obtain ⟨rfl, -⟩ := List.append_eq_nil_iff.mp hacts.symm
      cases hc
      exact hholds _ _ hinit
  | append_singleton acts a ih =>
    obtain ⟨c₀, h₀, ha⟩ := M.run_concat_eq_ok.mp hrun
    obtain ⟨hiff, hinv⟩ := ih hturn.left h₀
    have hend : ∀ c', M.run (acts ++ [a]) = .ok c' → c' = c := by
      intro c' hc'
      rw [hrun] at hc'
      cases hc'
      rfl
    cases a with
    | input i =>
      obtain ⟨s', hs', rfl⟩ := M.exec_input_eq_ok.mp ha
      have hturns := hturn.last h₀
      refine ⟨⟨fun halways => ?_, fun hadm => ?_⟩, fun hadm => ?_⟩
      · have hadm := hiff.mp halways.left
        have hone := (hstep _ _ i s' (hinv hadm) hturns hs').1 (halways.last hrun)
        exact hadm.concat_input h₀ hone
      · refine (hiff.mpr hadm.left).concat fun c' hc' => ?_
        rw [hend c' hc']
        exact hholds _ _ ((hstep _ _ i s' (hinv hadm.left) hturns hs').2 (hadm.last h₀))
      · exact (hstep _ _ i s' (hinv hadm.left) hturns hs').2 (hadm.last h₀)
    | pop =>
      have hkept : M.Admits ok acts → Inv c.history c.state := by
        intro hadm
        rcases M.exec_pop_eq_ok ha with rfl | ⟨hstate, hhistory⟩
        · exact hinv hadm
        · rw [hstate, hhistory]
          exact hpop _ _ (hinv hadm)
      refine ⟨⟨fun halways => (hiff.mp halways.left).concat_pop, fun hadm => ?_⟩,
        fun hadm => hkept hadm.left⟩
      refine (hiff.mpr hadm.left).concat fun c' hc' => ?_
      rw [hend c' hc']
      exact hholds _ _ (hkept hadm.left)

end Machine
