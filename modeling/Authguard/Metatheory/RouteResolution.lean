import Authguard.Common.HttpMatcher

/-!
Resolution of an HTTP request succeeds exactly when no route fails and one
single route answers, whatever the order of the routes.
-/

namespace Authguard
open Result

variable (method host path : String) (claims : TemplateValues)

/-- What is resolved so far counts as the answer of an earlier route. -/
theorem resolveRouteFrom_ok (routes : List CompiledHttpRoute)
    (resolved : Option ResolvedHttpRoute) (route : ResolvedHttpRoute) :
    resolveRouteFrom method host path claims routes resolved = .ok route ↔
      ∃ answers, collect (·.resolve method host path claims) routes = .ok answers ∧
        resolved.toList ++ answers.filterMap id = [route] := by
  induction routes generalizing resolved with
  | nil =>
      cases resolved with
      | none => simp [resolveRouteFrom, collect]
      | some found => simp [resolveRouteFrom, collect]
  | cons first routes ih =>
      simp only [resolveRouteFrom, collect, bind_ok_iff]
      constructor
      · rintro ⟨answer, hfirst, h⟩
        cases answer with
        | none =>
            obtain ⟨answers, hanswers, hroute⟩ := (ih resolved).mp h
            exact ⟨none :: answers, ⟨none, hfirst, answers, hanswers, rfl⟩, hroute⟩
        | some candidate =>
            cases resolved with
            | some found => simp at h
            | none =>
                obtain ⟨answers, hanswers, hroute⟩ := (ih (some candidate)).mp h
                exact ⟨some candidate :: answers,
                  ⟨some candidate, hfirst, answers, hanswers, rfl⟩, hroute⟩
      · rintro ⟨_, ⟨answer, hfirst, answers, hanswers, hall⟩, hroute⟩
        cases hall
        refine ⟨answer, hfirst, ?_⟩
        cases answer with
        | none => exact (ih resolved).mpr ⟨answers, hanswers, hroute⟩
        | some candidate =>
            cases resolved with
            | some found => simp at hroute
            | none => exact (ih (some candidate)).mpr ⟨answers, hanswers, hroute⟩

theorem resolveRoute_ok (routes : List CompiledHttpRoute) (route : ResolvedHttpRoute) :
    resolveRoute routes method host path claims = .ok route ↔
      ∃ answers, collect (·.resolve method host path claims) routes = .ok answers ∧
        answers.filterMap id = [route] := by
  simpa [resolveRoute] using resolveRouteFrom_ok method host path claims routes none route

theorem resolveRoute_perm {routes routes' : List CompiledHttpRoute} (hp : routes.Perm routes')
    (route : ResolvedHttpRoute) :
    resolveRoute routes method host path claims = .ok route ↔
      resolveRoute routes' method host path claims = .ok route := by
  have hone : ∀ {routes routes' : List CompiledHttpRoute}, routes.Perm routes' →
      resolveRoute routes method host path claims = .ok route →
      resolveRoute routes' method host path claims = .ok route := by
    intro routes routes' hp h
    obtain ⟨answers, hanswers, hroute⟩ := (resolveRoute_ok method host path claims _ _).mp h
    obtain ⟨answers', hanswers', hperm⟩ := collect_perm hp hanswers
    refine (resolveRoute_ok method host path claims _ _).mpr ⟨answers', hanswers', ?_⟩
    rw [← List.perm_singleton, ← hroute]
    exact (hperm.filterMap id).symm
  exact ⟨hone hp, hone hp.symm⟩

end Authguard
