import TypeScope.Extension
import TypeScope.Namespaces
import TypeScope.Registry
import TypeScope.Resolution
import TypeScope.Subtypes
import TypeScope.Visibility
import TypeScope.Proofs.Declarations
import TypeScope.Proofs.Tables
import TypeScope.Proofs.Unions
import TypeScope.Proofs.Incremental
import TypeScope.Proofs.Loading
import TypeScope.Proofs.Balance
import TypeScope.Proofs.Registration
import TypeScope.Proofs.ReferenceCounts
import TypeScope.Proofs.Reading
import TypeScope.Proofs.UniqueReadability
import TypeScope.Proofs.Queries
import TypeScope.Proofs.Sight
import TypeScope.Proofs.Lookups
import TypeScope.Proofs.InheritanceWalk
import TypeScope.Proofs.Updates
import TypeScope.Proofs.Frames
import TypeScope.Proofs.Sessions
import TypeScope.Proofs.Currency
import TypeScope.Proofs.IndexAge
import TypeScope.Proofs.Reach
import TypeScope.Proofs.Agreement
import TypeScope.Proofs.Vantage
import TypeScope.Proofs.Stamps
import TypeScope.Proofs.Keys
import TypeScope.Proofs.BaseNames
import TypeScope.Proofs.BaseLookups
import TypeScope.Proofs.BaseContexts
import TypeScope.Proofs.Descent
import TypeScope.Proofs.SubtypeSearch
import TypeScope.Proofs.Converse
import TypeScope.Proofs.JobOrder
import TypeScope.Proofs.Identity
import TypeScope.Proofs.Interchange
import TypeScope.Proofs.InterchangedLookups
import TypeScope.Proofs.Erasure
import TypeScope.Proofs.Traces
import TypeScope.Proofs.NearestFirst
import TypeScope.Proofs.ForcedUpdates
import TypeScope.Proofs.PendingJobs
import TypeScope.Proofs.NestedDeclarations
import TypeScope.Proofs.Outlines
import TypeScope.Proofs.NestedStorage
import TypeScope.Proofs.Termination
import TypeScope.Proofs.DottedNames
import TypeScope.Proofs.Parameters
import TypeScope.Proofs.Sources
import TypeScope.Proofs.PartialBases
import TypeScope.Proofs.Priority
import TypeScope.Proofs.Aliases
import TypeScope.Proofs.Refetching
import TypeScope.Proofs.Arities
import TypeScope.Proofs.CaseRules
import TypeScope.Proofs.Substitution
import TypeScope.Proofs.InstanceMembers
import TypeScope.Proofs.PartArguments
import TypeScope.Proofs.ArrayReferences
import TypeScope.Proofs.Inference
import TypeScope.Proofs.BoundMethods
import TypeScope.Proofs.PrivateMembers
import TypeScope.Proofs.NestedSight
import TypeScope.Proofs.ReceiverLookups
import TypeScope.Proofs.InheritedExtensions
import TypeScope.Proofs.Reports
import TypeScope.Proofs.Lifetimes
import TypeScope.Proofs.FilteredSubtypes
import TypeScope.Proofs.LookupRoutes
import TypeScope.Proofs.StableRefetching
import TypeScope.Proofs.NamespaceContents
import TypeScope.Proofs.Imports
import TypeScope.Proofs.Preorder
import TypeScope.Proofs.BuiltNames
import TypeScope.Proofs.RelaxedLookups
