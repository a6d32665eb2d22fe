import GraphCheckpoint.Content
import GraphCheckpoint.Live.ObjectId
import GraphCheckpoint.Main
import GraphCheckpoint.Proofs.Live.Ancestry
import GraphCheckpoint.Proofs.Live.Application
import GraphCheckpoint.Proofs.Persist.Stopping
import GraphCheckpoint.Proofs.Rebind.Passes
import GraphCheckpoint.Proofs.Restating
import GraphCheckpoint.Proofs.RoundTrip
import GraphCheckpoint.Proofs.Session.CurrentRecords
import GraphCheckpoint.Proofs.Session.DeclaredTypes
import GraphCheckpoint.Proofs.Session.ForeseenRebind
import GraphCheckpoint.Proofs.Session.PredictedRebind
import GraphCheckpoint.Proofs.Session.StoredLocations
import GraphCheckpoint.Proofs.Store.Accepting
import GraphCheckpoint.Proofs.Store.Agreement
import GraphCheckpoint.Proofs.Store.Counting
import GraphCheckpoint.Proofs.Store.Overrun
import GraphCheckpoint.Proofs.Store.Undecodable
import GraphCheckpoint.Proofs.Watch.Collecting
