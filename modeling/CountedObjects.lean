import CountedObjects.Proofs.Store.Soundness
import CountedObjects.Session.Probe
import CountedObjects.Proofs.Realm
import CountedObjects.Proofs.Session.State
import CountedObjects.Proofs.Session.Action
import CountedObjects.Proofs.Session.Building
import CountedObjects.Proofs.Session.Handles
import CountedObjects.Proofs.Collection.Sorting
import CountedObjects.Proofs.Session.Lists
import CountedObjects.Proofs.Session.Types
import CountedObjects.Proofs.Session.Tables
import CountedObjects.Proofs.Session.Run
import CountedObjects.Proofs.Session.Ownership
import CountedObjects.Proofs.Store.Cycles
import CountedObjects.Proofs.Session.Leaks
import CountedObjects.Proofs.Scalar
import CountedObjects.Proofs.Store.Equality
import CountedObjects.Proofs.Session.Equality
import CountedObjects.Proofs.Store.Observation
import CountedObjects.Proofs.Store.Mark
import CountedObjects.Proofs.Collection.Edits
import CountedObjects.Proofs.Collection.Lookup
import CountedObjects.Proofs.Elements
import CountedObjects.Proofs.Session.Contents
import CountedObjects.Proofs.Session.HashSets
import CountedObjects.Proofs.Session.Dictionaries
import CountedObjects.Proofs.Session.Journal
import CountedObjects.Proofs.Session.Survivors
import CountedObjects.Proofs.Session.SetCalls
import CountedObjects.Proofs.Session.DictionaryCalls
import CountedObjects.Proofs.Session.Stability
import CountedObjects.Proofs.Session.Enumerators
import CountedObjects.Proofs.Shown
import CountedObjects.Proofs.Session.Caution
import CountedObjects.Proofs.Session.CautiousSteps
import CountedObjects.Proofs.Session.Census
import CountedObjects.Proofs.Session.Failures
import CountedObjects.Proofs.Registrations
import CountedObjects.Proofs.Assignability
import CountedObjects.Proofs.Selection
import CountedObjects.Proofs.Session.Registrations
import CountedObjects.Proofs.Parsing
import CountedObjects.Proofs.Requests
import CountedObjects.Proofs.RequestOrder
import CountedObjects.Proofs.EnumTypes
import CountedObjects.Proofs.Recovery
import CountedObjects.Proofs.Session.Fitting
import CountedObjects.Proofs.Session.Rebuilding
import CountedObjects.Proofs.Digits
import CountedObjects.Proofs.CanonicalText
import CountedObjects.Proofs.Double.Nearest
import CountedObjects.Proofs.Double.Magnitudes
import CountedObjects.Proofs.Double.Rounding
import CountedObjects.Proofs.Double.Decimals
import CountedObjects.Proofs.Double.Grammar
import CountedObjects.Proofs.Double.Reading
import CountedObjects.Proofs.Double.Shortest
import CountedObjects.Proofs.Double.FewestDigits
import CountedObjects.Proofs.Double.RoundTrip
import CountedObjects.Proofs.Session.Conversions
import CountedObjects.Proofs.Session.Casts
import CountedObjects.Proofs.Session.Instances
import CountedObjects.Proofs.Session.Accessors
import CountedObjects.Proofs.Session.Widening
import CountedObjects.Proofs.EnumText
import CountedObjects.Proofs.Flags
import CountedObjects.Proofs.Session.Flags
import CountedObjects.Proofs.Session.FlaggedSteps
import CountedObjects.Proofs.Session.Unboxing
import CountedObjects.Proofs.Session.ListSteps
import CountedObjects.Proofs.Session.ListCalls
import CountedObjects.Proofs.Session.QueueSteps
import CountedObjects.Proofs.Session.QueueCalls
import CountedObjects.Proofs.Store.Recursion
import CountedObjects.Proofs.TypeNames
import CountedObjects.Proofs.Double.Closeness
