import Mini.Proofs.Registration

/-!
# Requests in any order

`registerAll_perm`: whether a list of requests is granted as a whole, and what automata can be built then, does not depend
on the order of the requests. Only the error of a refused list does.

A list of requests is granted exactly when each of them is proper and no two ask for edges that contradict each other, and
then there are exactly the edges that were asked for. Neither says where in the list a request stands, or how often, so both
pass to any list with the same requests (`Builder.exists_registerAll_iff_of_mem_iff`, `Builder.registerAll_unique_of_mem_iff`).
-/

namespace Mini

namespace Builder

variable {b after other : Builder} {requests others : List Registration}

/-- **The same requests contradict each other or not**, in whatever order they come. -/
theorem consistent_iff_of_mem_iff (same : ∀ r, r ∈ requests ↔ r ∈ others) :
    b.Consistent requests ↔ b.Consistent others := by
  simp only [Consistent, same]

/-- **The same requests are granted or not as a whole.** -/
theorem exists_registerAll_iff_of_mem_iff (same : ∀ r, r ∈ requests ↔ r ∈ others) :
    (∃ after, b.registerAll requests = .ok after) ↔ ∃ after, b.registerAll others = .ok after := by
  rw [exists_registerAll_eq_ok_iff, exists_registerAll_eq_ok_iff, consistent_iff_of_mem_iff same]
  simp only [same]

/-- **The same requests leave the same edges**, if they are granted. -/
theorem registerAll_unique_of_mem_iff (same : ∀ r, r ∈ requests ↔ r ∈ others)
    (granted : b.registerAll requests = .ok after) (grantedOthers : b.registerAll others = .ok other) :
    after = other := by
  refine congrArg Builder.mk (Std.ExtTreeMap.ext_getElem? fun key => Option.ext fun state => ?_)
  rw [getElem?_of_registerAll granted, getElem?_of_registerAll grantedOthers]
  simp only [same]

end Builder

/-- **The order of requests does not matter.** However the requests to a new builder are permuted, either all of them are
granted in both orders, and the two builders build the same automata, or both orders are refused. -/
theorem registerAll_perm {requests others : List Registration} (perm : requests.Perm others) :
    (∃ b other, Builder.empty.registerAll requests = .ok b ∧ Builder.empty.registerAll others = .ok other ∧
      ∀ start accepting, b.build start accepting = other.build start accepting) ∨
    ∃ e eOther, Builder.empty.registerAll requests = .error e ∧ Builder.empty.registerAll others = .error eOther := by
  have same : ∀ r, r ∈ requests ↔ r ∈ others := fun _ => perm.mem_iff
  have grantedIff := Builder.exists_registerAll_iff_of_mem_iff (b := .empty) same
  cases first : Builder.empty.registerAll requests with
  | ok b =>
    obtain ⟨other, second⟩ := grantedIff.mp ⟨b, first⟩
    obtain rfl := Builder.registerAll_unique_of_mem_iff same first second
    exact .inl ⟨b, b, rfl, second, fun _ _ => rfl⟩
  | error e =>
    cases second : Builder.empty.registerAll others with
    | ok other =>
      obtain ⟨b, granted⟩ := grantedIff.mpr ⟨other, second⟩
      rw [first] at granted
      cases granted
    | error eOther => exact .inr ⟨e, eOther, rfl, rfl⟩

/-- Overlapping ranges and a repeated edge are granted in both orders. With an edge to another target both orders are
refused, each where it meets the contradiction. -/
theorem registerAll_perm_overlap :
    let granted : List Registration := [.range "s" "a" "m" "t", .edge "s" "c" "t", .range "s" "h" "z" "t", .edge "s" "c" "t"]
    let refused : List Registration := [.range "s" "a" "m" "t", .range "s" "x" "z" "u", .edge "s" "c" "u"]
    (∃ b other, Builder.empty.registerAll granted = .ok b ∧ Builder.empty.registerAll granted.reverse = .ok other ∧
      (b.build "s" ["t"]).table = (other.build "s" ["t"]).table ∧ (other.build "s" ["t"]).step "s" "j" = some "t") ∧
    Builder.empty.registerAll refused = .error (.conflict "s" "c" "t" "u") ∧
    Builder.empty.registerAll refused.reverse = .error (.conflict "s" "c" "u" "t") := by
  intro granted refused
  refine ⟨?_, ?_⟩
  · rcases registerAll_perm granted.reverse_perm.symm with ⟨b, other, first, second, same⟩ | ⟨_, _, first, _⟩
    · refine ⟨b, other, first, second, congrArg Automaton.table (same "s" ["t"]), ?_⟩
      cases second
      decide +kernel
    · cases first
  · rcases registerAll_perm refused.reverse_perm.symm with ⟨_, _, first, _⟩ | ⟨e, eOther, first, second⟩
    · cases first
    · obtain rfl : ConstructionError.conflict "s" "c" "t" "u" = e := Except.error.inj first
      obtain rfl : ConstructionError.conflict "s" "c" "u" "t" = eOther := Except.error.inj second
      exact ⟨first, second⟩

end Mini
