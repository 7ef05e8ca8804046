import Mathlib.Algebra.Order.BigOperators.Group.List
import Mathlib.Algebra.Order.Ring.Nat
import Mathlib.Data.List.Nodup

/-!
# Short names

The lemmas about lists, options and updated functions that every part of the development rewrites
with, and the bounds of the machine integers.
-/

namespace Rimz

export List (any_eq_false append_assoc append_cons append_eq_nil_iff append_nil cons_append cons_ne_nil
  cons_prefix_cons count_eq_zero drop_left filterMap_append filterMap_cons filter_append filter_cons
  filter_eq_nil_iff filter_sublist flatMap_cons foldl_append foldl_cons isPrefixOf_iff_prefix
  length_append length_cons length_reverse length_singleton length_take map_append map_cons map_nil
  mem_append mem_append_left mem_append_right mem_cons mem_cons_of_mem mem_cons_self mem_filter
  mem_filterMap mem_flatMap mem_map mem_mapIdx mem_map_of_mem mem_of_getElem? mem_of_getLast?
  mem_of_head? mem_singleton mem_singleton_self nil_append nil_prefix nodup_append
  nodup_cons nodup_nil nodup_singleton not_mem_nil pairwise_append pairwise_cons pairwise_map
  pairwise_singleton perm_append_comm prefix_append prefix_rfl singleton_append sum_cons take_length
  take_of_length_le)

export Option (all_some any_eq_true any_some bind_eq_some_iff bind_some filter_eq_some_iff filter_some getD_some
  isNone_iff_eq_none isSome_iff_exists isSome_map map_eq_none_iff map_eq_some_iff map_map map_none
  map_some ne_none_iff_exists' not_isSome_iff_eq_none or_eq_none_iff toList_none toList_some)

export Function (comp_def forall_update_iff update_apply update_of_ne update_self)

export Bool (and_eq_true false_eq_true not_eq_false not_eq_true not_eq_true' or_eq_true toNat_false)

/-- `u64::MAX`. -/
def u64Max : Nat := 2 ^ 64 - 1

/-- `u32::MAX`. -/
def u32Max : Nat := 2 ^ 32 - 1

end Rimz
